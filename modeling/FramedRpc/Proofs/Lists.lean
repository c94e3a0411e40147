import Mathlib.Data.List.Perm.Subperm

/-!
# Facts about lists

Lists that grow at their end or change at one place, seen through a partial function or by how their
elements are related, lists of pairs, and lists with the same keys.
-/

namespace FramedRpc

/-! ## Lists that change at one place -/

theorem getElem?_concat {α : Type} (l : List α) (a : α) (i : Nat) :
    (l ++ [a])[i]? = if i = l.length then some a else l[i]? := by
  by_cases hi : i = l.length
  case pos => rw [if_pos hi, hi, List.getElem?_concat_length]
  case neg =>
    rw [if_neg hi]
    rcases Nat.lt_or_gt_of_ne hi with hlt | hgt
    · rw [List.getElem?_append_left hlt]
    · have hlength : (l ++ [a]).length ≤ i := by
        rw [List.length_append]
        exact Nat.succ_le_of_lt hgt
      rw [List.getElem?_eq_none hlength, List.getElem?_eq_none (Nat.le_of_lt hgt)]

theorem getElem?_set_of_some {α : Type} {l : List α} {i : Nat} {a : α} (h : l[i]? = some a) (b : α)
    (j : Nat) : (l.set i b)[j]? = if i = j then some b else l[j]? := by
  have hi : i < l.length := (List.getElem?_eq_some_iff.mp h).1
  rw [List.getElem?_set]
  simp [hi]

@[simp]
theorem modify_concat {α : Type} (l : List α) (a : α) (f : α → α) :
    (l ++ [a]).modify l.length f = l ++ [f a] := by
  ext1 i
  rw [List.getElem?_modify, getElem?_concat, getElem?_concat]
  by_cases hi : i = l.length
  · simp [hi]
  · simp [hi, Ne.symm hi]

theorem modify_of_some {α : Type} {l : List α} {i : Nat} {a : α} (h : l[i]? = some a)
    (f : α → α) : l.modify i f = l.set i (f a) := by
  ext1 j
  rw [List.getElem?_modify, getElem?_set_of_some h]
  by_cases hi : i = j
  · simp [← hi, h]
  · simp [hi]

theorem filterMap_concat {α β : Type} (g : α → Option β) (l : List α) (a : α) :
    (l ++ [a]).filterMap g = l.filterMap g ++ (g a).toList := by
  rw [List.filterMap_append, List.filterMap_cons]
  cases g a <;> rfl

theorem filterMap_modify_of_eq {α β : Type} {g : α → Option β} {f : α → α} {l : List α} (k : Nat)
    (h : ∀ a, g (f a) = g a) : (l.modify k f).filterMap g = l.filterMap g := by
  induction l generalizing k with
  | nil => simp
  | cons a l ih =>
    cases k with
    | zero => simp [List.filterMap_cons, h]
    | succ k => simp [List.filterMap_cons, ih]

theorem filterMap_modify_of_none {α β : Type} {g : α → Option β} {f : α → α} {l : List α} {k : Nat}
    {a : α} (ha : l[k]? = some a) (hnone : g a = none) :
    ((l.modify k f).filterMap g).Perm ((g (f a)).toList ++ l.filterMap g) := by
  induction l generalizing k with
  | nil => cases ha
  | cons b l ih =>
    cases k with
    | zero =>
      obtain rfl := Option.some.inj ha
      rw [List.modify_zero_cons, List.filterMap_cons, List.filterMap_cons, hnone]
      cases g (f b) <;> exact List.Perm.refl _
    | succ k =>
      have hbehind := ih ha
      rw [List.modify_succ_cons, List.filterMap_cons, List.filterMap_cons]
      cases g b with
      | none => exact hbehind
      | some c => exact (hbehind.cons c).trans List.perm_middle.symm

/-- An element that gets a value comes behind the others that have one, if none of those is behind
it. -/
theorem filterMap_set_of_none {α β : Type} {g : α → Option β} {l : List α} {k : Nat} {a b : α}
    (ha : l[k]? = some a) (hnone : g a = none)
    (hbehind : ∀ i c, k < i → l[i]? = some c → g b ≠ none → g c = none) :
    (l.set k b).filterMap g = l.filterMap g ++ (g b).toList := by
  induction l generalizing k with
  | nil => cases ha
  | cons d l ih =>
    cases k with
    | zero =>
      obtain rfl := Option.some.inj ha
      rw [List.set_cons_zero, List.filterMap_cons, List.filterMap_cons, hnone]
      cases hb : g b with
      | none => exact (List.append_nil _).symm
      | some r =>
        have hrest : l.filterMap g = [] := List.filterMap_eq_nil_iff.mpr fun c hc ↦ by
          obtain ⟨i, hi⟩ := List.mem_iff_getElem?.mp hc
          exact hbehind (i + 1) c (Nat.succ_pos i) hi (hb ▸ Option.some_ne_none r)
        rw [hrest]
        rfl
    | succ k =>
      have hrest := ih ha fun i c hi hc ↦ hbehind (i + 1) c (Nat.succ_lt_succ hi) hc
      rw [List.set_cons_succ, List.filterMap_cons, List.filterMap_cons, hrest]
      cases g d <;> rfl

theorem rel_of_pairwise {α : Type} {R : α → α → Prop} {l : List α} {i j : Nat} {a b : α}
    (h : l.Pairwise R) (hij : i < j) (ha : l[i]? = some a) (hb : l[j]? = some b) : R a b := by
  obtain ⟨hi, rfl⟩ := List.getElem?_eq_some_iff.mp ha
  obtain ⟨hj, rfl⟩ := List.getElem?_eq_some_iff.mp hb
  exact List.pairwise_iff_getElem.mp h i j hi hj hij

/-- An element is replaced by one that stands to the others as it did. -/
theorem pairwise_set {α : Type} {R : α → α → Prop} {l : List α} {k : Nat} {a b : α}
    (h : l.Pairwise R) (ha : l[k]? = some a)
    (hbefore : ∀ i c, i < k → l[i]? = some c → R c a → R c b) (hbehind : ∀ c, R a c → R b c) :
    (l.set k b).Pairwise R := by
  induction l generalizing k with
  | nil => cases ha
  | cons d l ih =>
    obtain ⟨hfirst, hrest⟩ := List.pairwise_cons.mp h
    cases k with
    | zero =>
      obtain rfl := Option.some.inj ha
      exact List.pairwise_cons.mpr ⟨fun c hc ↦ hbehind c (hfirst c hc), hrest⟩
    | succ k =>
      refine List.pairwise_cons.mpr ⟨fun c hc ↦ ?_, ih hrest ha fun i c hi hc ↦
        hbefore (i + 1) c (Nat.succ_lt_succ hi) hc⟩
      rcases List.mem_or_eq_of_mem_set hc with hold | rfl
      · exact hfirst c hold
      · exact hbefore 0 d (Nat.succ_pos k) rfl (hfirst a (List.mem_of_getElem? ha))

/-! ## Lists of pairs -/

theorem mem_of_lookup_eq_some {α β : Type} [DecidableEq α] {l : List (α × β)} {a : α} {b : β}
    (h : l.lookup a = some b) : (a, b) ∈ l := by
  obtain ⟨before, behind, rfl, -⟩ := List.lookup_eq_some_iff.mp h
  exact List.mem_append_right _ List.mem_cons_self

theorem lookup_eq_some_of_mem {α β : Type} [DecidableEq α] {l : List (α × β)} {a : α} {b : β}
    (hnodup : (l.map Prod.fst).Nodup) (h : (a, b) ∈ l) : l.lookup a = some b := by
  obtain ⟨before, behind, rfl⟩ := List.append_of_mem h
  rw [List.map_append, List.nodup_append] at hnodup
  refine List.lookup_eq_some_iff.mpr ⟨before, behind, rfl, fun entry hentry ↦ ?_⟩
  rw [bne_iff_ne]
  exact (hnodup.2.2 _ (List.mem_map_of_mem hentry) a (List.mem_map_of_mem List.mem_cons_self)).symm

/-- Without the pairs of a key, only that key is found no more. -/
theorem lookup_filter_ne {α β : Type} [DecidableEq α] (l : List (α × β)) (a other : α) :
    (l.filter fun entry ↦ entry.1 ≠ other).lookup a = if a = other then none else l.lookup a := by
  induction l with
  | nil => simp
  | cons entry rest ih =>
    obtain ⟨key, b⟩ := entry
    by_cases hkey : key = other
    case pos =>
      subst hkey
      rw [List.filter_cons_of_neg (by simp), ih]
      split
      case isTrue => rfl
      case isFalse ha => rw [List.lookup_cons, beq_false_of_ne ha]
    case neg =>
      rw [List.filter_cons_of_pos (by simpa using hkey), List.lookup_cons, List.lookup_cons, ih]
      by_cases ha : a = key
      case pos => simp [ha, hkey]
      case neg => rw [beq_false_of_ne ha]

/-! ## Sorted texts -/

/-- Texts that were sorted ascend. -/
theorem pairwise_le_sorted (texts : List String) :
    (texts.mergeSort fun a b ↦ a ≤ b).Pairwise (· ≤ ·) := by
  have hsorted : (texts.mergeSort fun a b ↦ a ≤ b).Pairwise fun a b ↦ decide (a ≤ b) = true := by
    refine List.pairwise_mergeSort (fun a b c hab hbc ↦ ?_) (fun a b ↦ ?_) texts
    · exact decide_eq_true (String.le_trans (of_decide_eq_true hab) (of_decide_eq_true hbc))
    · simpa only [Bool.or_eq_true, decide_eq_true_eq] using String.le_total a b
  exact hsorted.imp of_decide_eq_true

/-- Different texts that were sorted ascend strictly. -/
theorem pairwise_lt_sorted {texts : List String} (hnodup : texts.Nodup) :
    (texts.mergeSort fun a b ↦ a ≤ b).Pairwise (· < ·) := by
  have hdistinct : (texts.mergeSort fun a b ↦ a ≤ b).Pairwise (· ≠ ·) :=
    (List.mergeSort_perm _ _).nodup_iff.mpr hnodup
  refine (pairwise_le_sorted texts).imp₂ (fun a b hle hne ↦ ?_) hdistinct
  exact not_not.mp fun hlt ↦ hne (String.le_antisymm hle (String.not_lt.mp hlt))

/-- Among ascending texts the first one with a value is the least one. -/
theorem exists_least_of_findSome? {β : Type} {texts : List String} {f : String → Option β} {b : β}
    (hsorted : texts.Pairwise (· ≤ ·)) (h : texts.findSome? f = some b) :
    ∃ text ∈ texts, f text = some b ∧ ∀ other ∈ texts, f other ≠ none → text ≤ other := by
  obtain ⟨before, text, behind, rfl, hvalue, hbefore⟩ := List.findSome?_eq_some_iff.mp h
  have hbehind : ∀ other ∈ behind, text ≤ other :=
    (List.pairwise_cons.mp (List.pairwise_append.mp hsorted).2.1).1
  refine ⟨text, List.mem_append_right _ List.mem_cons_self, hvalue, fun other hother hsome ↦ ?_⟩
  rcases List.mem_append.mp hother with hmem | hmem
  · exact absurd (hbefore other hmem) hsome
  · rcases List.mem_cons.mp hmem with rfl | hmem
    · exact String.le_refl _
    · exact hbehind other hmem

/-! ## Lists with the same keys -/

/-- Two lists with the same keys up to their order can be matched. -/
theorem exists_forall₂_of_perm {α β γ : Type} {f : α → γ} {g : β → γ} {l : List α} {m : List β}
    (h : (l.map f).Perm (m.map g)) :
    ∃ n : List β, List.Forall₂ (fun a b ↦ f a = g b) l n ∧ n.Perm m := by
  have hkeys : List.Forall₂ (fun c b ↦ c = g b) (m.map g) m := by
    rw [List.forall₂_map_left_iff]
    exact List.forall₂_same.mpr fun _ _ ↦ rfl
  obtain ⟨n, hmatched, hperm⟩ := List.perm_comp_forall₂ h hkeys
  exact ⟨n, List.forall₂_map_left_iff.mp hmatched, hperm⟩

theorem exists_forall₂_of_subperm {α β γ : Type} {f : α → γ} {g : β → γ} {l : List α} {m : List β}
    (h : (l.map f).Subperm (m.map g)) :
    ∃ n : List β, List.Forall₂ (fun a b ↦ f a = g b) l n ∧ n.Subperm m := by
  obtain ⟨keys, hkeys, hsublist⟩ := h
  obtain ⟨chosen, hchosen, rfl⟩ := List.sublist_map_iff.mp hsublist
  obtain ⟨n, hmatched, hperm⟩ := exists_forall₂_of_perm hkeys.symm
  exact ⟨n, hmatched, hperm.subperm.trans hchosen.subperm⟩

end FramedRpc
