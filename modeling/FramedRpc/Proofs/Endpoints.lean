import FramedRpc.Endpoint
import FramedRpc.Proofs.Text.Numerals
import Mathlib.Data.List.DropRight
import Mathlib.Data.List.TakeDrop

/-!
# The texts of endpoints

A text is read as an endpoint from its end: behind the last colon stands the port, before it the
host, and the brackets around the host are left out, however many there are. So exactly those hosts
are read back from what is written of them that are not empty and have no bracket at an end; colons
anywhere in a host and brackets in its middle do no harm.
-/

namespace FramedRpc.Endpoint

open Numeral (Spells)

/-! ## Hosts in brackets -/

/-- A host that does not look like one in brackets. -/
structure Bare (host : List Char) : Prop where
  ne_nil : host ≠ []
  head : host.head? ≠ some '['
  last : host.getLast? ≠ some ']'

instance (host : List Char) : Decidable (Bare host) :=
  decidable_of_iff (host ≠ [] ∧ host.head? ≠ some '[' ∧ host.getLast? ≠ some ']')
    ⟨fun h ↦ ⟨h.1, h.2.1, h.2.2⟩, fun h ↦ ⟨h.ne_nil, h.head, h.last⟩⟩

section Brackets

variable {c : Char} {text host port : List Char}

theorem dropWhile_replicate_append (h : text.head? ≠ some c) (n : Nat) :
    (List.replicate n c ++ text).dropWhile (· = c) = text := by
  rw [List.dropWhile_append_of_pos fun a ha ↦ decide_eq_true (List.eq_of_mem_replicate ha)]
  cases text with
  | nil => rfl
  | cons first rest =>
    refine List.dropWhile_cons_of_neg ?_
    simpa using h

theorem exists_eq_replicate_append (c : Char) (text : List Char) :
    ∃ n, text = List.replicate n c ++ text.dropWhile (· = c) := by
  have hall : text.takeWhile (· = c) = List.replicate (text.takeWhile (· = c)).length c :=
    List.eq_replicate_of_mem fun a ha ↦ by simpa using List.mem_takeWhile_imp ha
  refine ⟨(text.takeWhile (· = c)).length, ?_⟩
  rw [← hall, List.takeWhile_append_dropWhile]

theorem head?_dropWhile_ne (c : Char) (text : List Char) :
    (text.dropWhile (· = c)).head? ≠ some c := by
  intro hhead
  simpa [hhead] using List.head?_dropWhile_not (· = c) text

/-- The brackets around a bare host are left out. -/
theorem unbracket_of_bare (h : Bare host) (opening closing : Nat) :
    unbracket (List.replicate opening '[' ++ host ++ List.replicate closing ']') = host := by
  have hhead : (host ++ List.replicate closing ']').head? ≠ some '[' := by
    rw [List.head?_append_of_ne_nil _ h.ne_nil]
    exact h.head
  have hlast : host.reverse.head? ≠ some ']' := by
    rw [List.head?_reverse]
    exact h.last
  unfold unbracket
  rw [List.append_assoc, dropWhile_replicate_append hhead, List.reverse_append,
    List.reverse_replicate, dropWhile_replicate_append hlast, List.reverse_reverse]

/-- Nothing is left out but brackets. -/
theorem exists_eq_unbracket (text : List Char) : ∃ opening closing,
    text = List.replicate opening '[' ++ unbracket text ++ List.replicate closing ']' := by
  obtain ⟨opening, hopening⟩ := exists_eq_replicate_append '[' text
  obtain ⟨closing, hclosing⟩ :=
    exists_eq_replicate_append ']' (text.dropWhile (· = '[')).reverse
  have hinside : text.dropWhile (· = '[') = unbracket text ++ List.replicate closing ']' := by
    rw [← List.reverse_inj, hclosing, List.reverse_append, List.reverse_replicate, unbracket,
      List.reverse_reverse]
  exact ⟨opening, closing, by rw [List.append_assoc, ← hinside, ← hopening]⟩

/-- What is left is empty or bare. -/
theorem bare_unbracket (h : unbracket text ≠ []) : Bare (unbracket text) where
  ne_nil := h
  head := by
    obtain ⟨rest, hrest⟩ : unbracket text <+: text.dropWhile (· = '[') :=
      List.rdropWhile_prefix (· = ']') _
    rw [← List.head?_append_of_ne_nil _ h, hrest]
    exact head?_dropWhile_ne '[' text
  last := by
    rw [unbracket, List.getLast?_reverse]
    exact head?_dropWhile_ne ']' _

/-! ## The last colon -/

/-- A text is split at the colon behind which there is no other one. -/
theorem splitPort?_eq_some_iff :
    splitPort? text = some (host, port) ↔ text = host ++ ':' :: port ∧ ':' ∉ port := by
  unfold splitPort?
  rw [List.span_eq_takeWhile_dropWhile]
  have hparts := List.takeWhile_append_dropWhile (p := (· ≠ ':')) (l := text.reverse)
  constructor
  · intro h
    split at h
    case h_1 => cases h
    case h_2 behind colon before heq =>
      obtain ⟨rfl, rfl⟩ := Prod.mk.inj (Option.some.inj h)
      obtain ⟨hbehind, hbefore⟩ := Prod.mk.inj heq
      have hcolon := List.head?_dropWhile_not (· ≠ ':') text.reverse
      rw [hbefore] at hcolon
      obtain rfl : colon = ':' := by simpa using hcolon
      rw [hbehind, hbefore] at hparts
      refine ⟨?_, fun hmem ↦ ?_⟩
      · rw [← List.reverse_inj, ← hparts]
        simp
      · rw [List.mem_reverse, ← hbehind] at hmem
        simpa using List.mem_takeWhile_imp hmem
  · rintro ⟨rfl, hport⟩
    have hbehind : ∀ a ∈ port.reverse, decide (a ≠ ':') = true := by
      rintro a ha
      exact decide_eq_true fun hcolon ↦ hport (hcolon ▸ List.mem_reverse.mp ha)
    have hreverse : (host ++ ':' :: port).reverse = port.reverse ++ ':' :: host.reverse := by
      simp
    rw [hreverse, List.takeWhile_append_of_pos hbehind, List.dropWhile_append_of_pos hbehind]
    simp

end Brackets

/-! ## What a text denotes -/

variable {text : String} {e : Endpoint}

/-- A text denotes an endpoint: it is the bare host, perhaps in brackets, a colon and the port. -/
structure Denotes (text : String) (e : Endpoint) : Prop where
  bare : Bare e.host.toList
  spelled : ∃ opening closing port, text.toList =
      List.replicate opening '[' ++ e.host.toList ++ List.replicate closing ']' ++ ':' :: port ∧
    ':' ∉ port ∧ Spells port e.port.toNat

theorem parse_eq_ok_iff_read : parse text = .ok e ↔ read text.toList = .ok e := by
  unfold parse
  cases read text.toList with
  | error flaw => exact iff_of_false nofun nofun
  | ok other =>
    constructor
    all_goals
      intro h
      obtain rfl := Except.ok.inj h
      rfl

theorem read_eq_ok_iff {text : List Char} : read text = .ok e ↔ ∃ host port n,
    splitPort? text = some (host, port) ∧ Numeral.readNat portLimit port = .ok n ∧
      unbracket host ≠ [] ∧ e = ⟨String.ofList (unbracket host), n.toUInt16⟩ := by
  unfold read
  constructor
  · intro h
    split at h
    case h_1 => cases h
    case h_2 host port hsplit =>
      split at h
      case h_1 => cases h
      case h_2 n hport =>
        split at h
        case h_1 => cases h
        case h_2 hhost => exact ⟨host, port, n, hsplit, hport, hhost, (Except.ok.inj h).symm⟩
  · rintro ⟨host, port, n, hsplit, hport, hhost, rfl⟩
    simp only [hsplit, hport]

/-- A text is read as the endpoint that it denotes. -/
theorem parse_eq_ok_iff : parse text = .ok e ↔ Denotes text e := by
  rw [parse_eq_ok_iff_read, read_eq_ok_iff]
  constructor
  · rintro ⟨host, port, n, hsplit, hport, hhost, rfl⟩
    obtain ⟨htext, hcolon⟩ := splitPort?_eq_some_iff.mp hsplit
    obtain ⟨hspells, hlimit⟩ := Numeral.readNat_eq_ok_iff.mp hport
    obtain ⟨opening, closing, hbrackets⟩ := exists_eq_unbracket host
    have hn : n.toUInt16.toNat = n := Nat.mod_eq_of_lt (Nat.lt_succ_of_le hlimit)
    refine ⟨?_, opening, closing, port, ?_, hcolon, ?_⟩
    · rw [String.toList_ofList]
      exact bare_unbracket hhost
    · rw [String.toList_ofList, ← hbrackets, htext]
    · rw [hn]
      exact hspells
  · rintro ⟨hbare, opening, closing, port, htext, hcolon, hspells⟩
    have hhost := unbracket_of_bare hbare opening closing
    refine ⟨_, port, e.port.toNat, splitPort?_eq_some_iff.mpr ⟨htext, hcolon⟩, ?_, ?_, ?_⟩
    · exact Numeral.readNat_eq_ok_iff.mpr ⟨hspells, Nat.le_of_lt_succ e.port.toNat_lt⟩
    · rw [hhost]
      exact hbare.ne_nil
    · rw [hhost, String.ofList_toList]
      simp

example : parse "[[a:]b]]:+080" = .ok ⟨"a:]b", 80⟩ := rfl

/-- What is written of an endpoint with a bare host denotes it. -/
theorem denotes_display (h : Bare e.host.toList) : Denotes e.display e := by
  refine ⟨h, ?_⟩
  have hport : ':' ∉ Numeral.decimal e.port.toNat := fun hmem ↦
    absurd (Nat.isDigit_of_mem_toDigits (by decide) (by decide) hmem) (by decide)
  have hspells := Numeral.spells_decimal e.port.toNat
  unfold display
  split
  case isTrue =>
    refine ⟨1, 1, _, ?_, hport, hspells⟩
    simp [Numeral.text, String.toList_append]
  case isFalse =>
    refine ⟨0, 0, _, ?_, hport, hspells⟩
    simp [Numeral.text, String.toList_append]

/-- An endpoint is read back exactly if its host is bare. -/
theorem parse_display_eq_ok_iff : parse e.display = .ok e ↔ Bare e.host.toList :=
  ⟨fun h ↦ (parse_eq_ok_iff.mp h).bare, fun h ↦ parse_eq_ok_iff.mpr (denotes_display h)⟩

/-- A text is read if it can be split at its last colon into a host that is more than brackets and
the number of a port. -/
theorem exists_parse_eq_ok_iff : (∃ e, parse text = .ok e) ↔ ∃ host port n,
    text.toList = host ++ ':' :: port ∧ ':' ∉ port ∧ unbracket host ≠ [] ∧ Spells port n ∧
      n ≤ portLimit := by
  simp only [parse_eq_ok_iff_read, read_eq_ok_iff, splitPort?_eq_some_iff,
    Numeral.readNat_eq_ok_iff]
  constructor
  · rintro ⟨-, host, port, n, ⟨htext, hcolon⟩, ⟨hspells, hlimit⟩, hhost, -⟩
    exact ⟨host, port, n, htext, hcolon, hhost, hspells, hlimit⟩
  · rintro ⟨host, port, n, htext, hcolon, hhost, hspells, hlimit⟩
    exact ⟨_, host, port, n, ⟨htext, hcolon⟩, ⟨hspells, hlimit⟩, hhost, rfl⟩

/-- What is true of the reading of a text and of the writing of an endpoint. -/
structure Legible (text : String) (e : Endpoint) : Prop where
  /-- What is read has a bare host, and is read again from what is written of it. -/
  settled : parse text = .ok e → Bare e.host.toList ∧ parse e.display = .ok e
  /-- Exactly those endpoints are given back that have a bare host. -/
  restored : parse e.display = .ok e ↔ Bare e.host.toList
  denoted : parse text = .ok e ↔ Denotes text e
  /-- A text is read exactly if the last colon divides it into a host, of which something is left
  without the brackets, and the number of a port. -/
  accepted : (∃ e, parse text = .ok e) ↔ ∃ host port n, text.toList = host ++ ':' :: port ∧
    ':' ∉ port ∧ (host.dropWhile (· = '[')).rdropWhile (· = ']') ≠ [] ∧ Spells port n ∧ n ≤ 65535

/-- Every text and every endpoint is read and written so. -/
theorem legible (text : String) (e : Endpoint) : Legible text e where
  settled h :=
    have hbare := (parse_eq_ok_iff.mp h).bare
    ⟨hbare, parse_display_eq_ok_iff.mpr hbare⟩
  restored := parse_display_eq_ok_iff
  denoted := parse_eq_ok_iff
  accepted := exists_parse_eq_ok_iff

end FramedRpc.Endpoint
