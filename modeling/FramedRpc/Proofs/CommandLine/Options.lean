import FramedRpc.CommandLine.Command
import FramedRpc.Proofs.Text.Numerals

/-!
# What command lines are accepted

What all settings and operands of a grammar keep holds of whatever it reads, in which order they are
given. So the numbers that a server is told have 64 bits. All such numbers are accepted; whether a
server can do with them is not looked at.
-/

namespace FramedRpc.CommandLine

theorem exists_of_bind {α β ε : Type} {x : Except ε α} {f : α → Except ε β} {b : β}
    (h : x >>= f = .ok b) : ∃ a, x = .ok a ∧ f a = .ok b := by
  cases x with
  | error => cases h
  | ok a => exact ⟨a, rfl, h⟩

/-! ## What a grammar reads -/

namespace Grammar

variable {σ : Type} {g : Grammar σ} {P : σ → Prop} {r r' : Reading σ} {arguments rest : List String}
  {start v : σ} {spelling value : String} {s : Setting σ}

/-- Each setting and each operand of a grammar keeps what is true of the values read so far. -/
structure Keeps (g : Grammar σ) (P : σ → Prop) : Prop where
  operands : ∀ o ∈ g.operands, ∀ text v w, o.read text v = .ok w → P v → P w
  settings : ∀ s ∈ g.settings, ∀ text v w, s.read text v = .ok w → P v → P w

theorem mem_of_setting? (h : g.setting? spelling = some s) : s ∈ g.settings :=
  List.mem_of_find?_eq_some h

theorem Keeps.readSetting (h : g.Keeps P) (hs : s ∈ g.settings)
    (hread : Grammar.readSetting r s spelling value = .ok r') (hr : P r.values) : P r'.values := by
  unfold Grammar.readSetting at hread
  dsimp only at hread
  split at hread
  case h_1 values hvalues =>
    obtain rfl := Except.ok.inj hread
    split at hvalues
    case isTrue => cases hvalues
    case isFalse => exact h.settings s hs value r.values values hvalues hr
  case h_2 => cases hread

theorem Keeps.readOperand (h : g.Keeps P) {argument : String}
    (hread : g.readOperand r argument = .ok r') (hr : P r.values) : P r'.values := by
  unfold Grammar.readOperand at hread
  split at hread
  case h_1 => cases hread
  case h_2 o ho =>
    split at hread
    case h_1 values hvalues =>
      obtain rfl := Except.ok.inj hread
      exact h.operands o (List.mem_of_getElem? ho) argument r.values values hvalues hr
    case h_2 => cases hread

/-- The values are only changed by settings and operands; other arguments leave them as they are, or
end the reading. -/
theorem Keeps.readAll (h : g.Keeps P) (hread : g.readAll r arguments = .ok r')
    (hr : P r.values) : P r'.values := by
  fun_induction g.readAll r arguments with
  | case2 =>
    obtain rfl := Except.ok.inj hread
    exact hr
  | case3 r argument rest hhelp ih => exact ih hread hr
  | case4 r rest hhelp hdash ih => exact ih hread hr
  | case8 r argument hhelp hoption hdash hhelped s value rest hs next hnext ih =>
    exact ih hread (h.readSetting (mem_of_setting? hs) hnext hr)
  | case10 r argument rest hhelp hoption next hnext ih => exact ih hread (h.readOperand hnext hr)
  | _ => cases hread

/-- What all parts of a grammar keep holds of what is read, if it holds from the start. -/
theorem Keeps.read (h : g.Keeps P) (hread : g.read start arguments = .ok v) (hstart : P start) :
    P v := by
  obtain ⟨r, hall, hread⟩ := exists_of_bind hread
  have hr : P r.values := h.readAll hall hstart
  split at hread
  case h_1 =>
    obtain rfl := Except.ok.inj hread
    exact hr
  case h_2 => cases hread

/-- A setting that was not given before is read together with its value. -/
theorem readAll_setting (hended : r.ended = false) (hhelped : r.helped = false)
    (hhelp : helpWords.contains spelling = false) (hoption : isOption spelling = true)
    (hdash : spelling ≠ "--") (hs : g.setting? spelling = some s)
    (hgiven : r.given.contains s.name = false) (hvalue : s.read value r.values = .ok v) :
    g.readAll r (spelling :: value :: rest) =
      g.readAll { r with values := v, given := s.name :: r.given } rest := by
  have hsetting : Grammar.readSetting r s spelling value =
      .ok { r with values := v, given := s.name :: r.given } := by
    simp only [Grammar.readSetting, hgiven, hvalue, Bool.false_eq_true, if_false]
  rw [Grammar.readAll.eq_def]
  simp only [hended, hhelped, hhelp, hoption, hdash, hs, hsetting, Bool.not_false, Bool.and_true,
    Bool.and_false, Bool.false_eq_true, if_false, if_true]

end Grammar

/-! ## Numbers -/

def wordLimit : Nat := 0xFFFFFFFFFFFFFFFF

/-- A number is read from its digits if it has 64 bits. -/
theorem readWord_eq_ok_iff {text : String} {n : Nat} :
    readWord text = .ok n ↔ Numeral.Spells text.toList n ∧ n ≤ wordLimit := by
  rw [← Numeral.readNat_eq_ok_iff, readWord, wordLimit]
  cases Numeral.readNat 0xFFFFFFFFFFFFFFFF text.toList with
  | error flaw => exact iff_of_false nofun nofun
  | ok m => exact ⟨fun h ↦ congrArg _ (Except.ok.inj h), fun h ↦ congrArg _ (Except.ok.inj h)⟩

@[simp]
theorem readWord_text {n : Nat} (h : n ≤ wordLimit) : readWord (Numeral.text n) = .ok n := by
  rw [readWord_eq_ok_iff, Numeral.text, String.toList_ofList]
  exact ⟨Numeral.spells_decimal n, h⟩

/-! ## What a server is told -/

namespace ServeOptions

variable {o : ServeOptions} {arguments : List String}

/-- The numbers have 64 bits. -/
structure Fits (o : ServeOptions) : Prop where
  readIdle : o.readIdle ≤ wordLimit
  workers : o.workers ≤ wordLimit

theorem keeps_fits : grammar.Keeps Fits where
  operands := nofun
  settings s hs text v w hread hv := by
    simp only [grammar, List.mem_cons, List.not_mem_nil, or_false] at hs
    rcases hs with rfl | rfl | rfl | rfl
    -- the address to listen on and the endpoint to announce change none of the numbers
    · obtain rfl := Except.ok.inj hread
      exact ⟨hv.readIdle, hv.workers⟩
    · obtain ⟨e, -, hw⟩ := exists_of_bind hread
      obtain rfl := Except.ok.inj hw
      exact ⟨hv.readIdle, hv.workers⟩
    · obtain ⟨n, hn, hw⟩ := exists_of_bind hread
      obtain rfl := Except.ok.inj hw
      exact ⟨(readWord_eq_ok_iff.mp hn).2, hv.workers⟩
    · obtain ⟨n, hn, hw⟩ := exists_of_bind hread
      obtain rfl := Except.ok.inj hw
      exact ⟨hv.readIdle, (readWord_eq_ok_iff.mp hn).2⟩

theorem exists_setting_readIdle {n : Nat} (h : n ≤ wordLimit) :
    ∃ s, grammar.setting? "--read-idle-secs" = some s ∧ s.name = "read-idle-secs" ∧
      ∀ o : ServeOptions, s.read (Numeral.text n) o = .ok { o with readIdle := n } := by
  have hs : grammar.setting? "--read-idle-secs" = grammar.settings[2]? := by
    simp [Grammar.setting?, grammar, Setting.spellings, Setting.long]
  refine ⟨_, hs, rfl, fun o ↦ ?_⟩
  exact congrArg (fun word ↦ do return { o with readIdle := ← word }) (readWord_text h)

theorem exists_setting_workers {n : Nat} (h : n ≤ wordLimit) :
    ∃ s, grammar.setting? "--workers" = some s ∧ s.name = "workers" ∧
      ∀ o : ServeOptions, s.read (Numeral.text n) o = .ok { o with workers := n } := by
  have hs : grammar.setting? "--workers" = grammar.settings[3]? := by
    simp [Grammar.setting?, grammar, Setting.spellings, Setting.long]
  refine ⟨_, hs, rfl, fun o ↦ ?_⟩
  exact congrArg (fun word ↦ do return { o with workers := ← word }) (readWord_text h)

/-- Any two numbers of 64 bits are accepted. -/
theorem read_numbers {readIdle workers : Nat} (hreadIdle : readIdle ≤ wordLimit)
    (hworkers : workers ≤ wordLimit) :
    grammar.read .standard
      ["--read-idle-secs", Numeral.text readIdle, "--workers", Numeral.text workers] =
      .ok { ServeOptions.standard with readIdle, workers } := by
  obtain ⟨silence, hsilence, hname, hread⟩ := exists_setting_readIdle hreadIdle
  obtain ⟨count, hcount, hother, hcounted⟩ := exists_setting_workers hworkers
  have hnew : [silence.name].contains count.name = false := by
    rw [hname, hother]
    decide
  have hall : grammar.readAll ⟨.standard, [], 0, false, false⟩
      ["--read-idle-secs", Numeral.text readIdle, "--workers", Numeral.text workers] =
      .ok ⟨{ ServeOptions.standard with readIdle, workers }, [count.name, silence.name], 0, false,
        false⟩ :=
    calc
      _ = grammar.readAll
          ⟨{ ServeOptions.standard with readIdle }, [silence.name], 0, false, false⟩
          ["--workers", Numeral.text workers] :=
        Grammar.readAll_setting rfl rfl (by decide) (by decide) (by decide) hsilence rfl (hread _)
      _ = grammar.readAll ⟨{ ServeOptions.standard with readIdle, workers },
          [count.name, silence.name], 0, false, false⟩ [] :=
        Grammar.readAll_setting rfl rfl (by decide) (by decide) (by decide) hcount hnew (hcounted _)
      _ = _ := rfl
  rw [Grammar.read, hall]
  rfl

end ServeOptions

namespace Command

variable {o : ServeOptions} {name : String} {arguments : List String} {helped ended : Bool}

theorem read_of_named? (h : named? name arguments = some (.ok (.serve o))) :
    ServeOptions.grammar.read .standard arguments = .ok o := by
  unfold named? at h
  split at h
  case h_1 =>
    obtain ⟨p, hp, hserve⟩ := exists_of_bind (Option.some.inj h)
    obtain rfl := Command.serve.inj (Except.ok.inj hserve)
    exact hp
  case h_2 =>
    obtain ⟨p, -, hcall⟩ := exists_of_bind (Option.some.inj h)
    split at hcall <;> cases hcall
  case h_3 => cases h

/-- What a server is told was read from the arguments behind the name of its command. -/
theorem exists_read_of_readFrom (h : readFrom helped ended arguments = .ok (.serve o)) :
    ∃ rest, ServeOptions.grammar.read .standard rest = .ok o := by
  fun_induction readFrom helped ended arguments with
  | case3 helped ended argument rest hhelp ih => exact ih h
  | case4 helped ended rest hhelp hdash ih => exact ih h
  | case7 helped ended argument rest hhelp hoption command hnamed =>
    obtain rfl := h
    exact ⟨_, read_of_named? hnamed⟩
  | _ => cases h

/-- The numbers that a server is told have 64 bits. -/
theorem fits_of_read (h : read arguments = .ok (.serve o)) : o.Fits := by
  obtain ⟨rest, hrest⟩ := exists_read_of_readFrom h
  exact ServeOptions.keeps_fits.read hrest ⟨by decide, by decide⟩

/-- Any two numbers of 64 bits can be told. -/
theorem read_serve {readIdle workers : Nat} (hreadIdle : readIdle ≤ wordLimit)
    (hworkers : workers ≤ wordLimit) :
    read ["serve", "--read-idle-secs", Numeral.text readIdle, "--workers", Numeral.text workers] =
      .ok (.serve { ServeOptions.standard with readIdle, workers }) := by
  have hname : named? "serve"
      ["--read-idle-secs", Numeral.text readIdle, "--workers", Numeral.text workers] =
      some (.ok (.serve { ServeOptions.standard with readIdle, workers })) := by
    rw [named?, ServeOptions.read_numbers hreadIdle hworkers]
    rfl
  have hserve : helpWords.contains "serve" = false ∧ isOption "serve" = false := by decide
  simp only [read, readFrom, hserve, hname, Bool.and_false, Bool.false_eq_true, if_false]

end Command

end FramedRpc.CommandLine
