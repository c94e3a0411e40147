import FramedRpc.Proofs.Discovery.Rotation
import Mathlib.Data.Int.CardIntervalMod

/-!
# Choosing endpoints

Whatever a balancer did before, it chooses a member of every list that has one, and from an empty
list nothing, which leaves it as it is. In turns, choices from lists of one length go round:
wherever the cursor stands, no position is chosen more than once more often than another.
-/

namespace FramedRpc

/-! ## Choosing at random -/

namespace Random.Generator

variable {bound : Nat}

theorem next_lt (g : Generator) : g.next.1 < 0x10000000000000000 := by
  have hlow := g.nextWord.1.toNat_lt
  have hhigh := g.nextWord.2.nextWord.1.toNat_lt
  show g.nextWord.1.toNat + g.nextWord.2.nextWord.1.toNat * 0x100000000 < _
  omega

/-- The upper half of a product with a draw is below the bound. -/
theorem div_lt (hbound : 0 < bound) (g : Generator) :
    g.next.1 * bound / 0x10000000000000000 < bound := by
  rw [Nat.div_lt_iff_lt_mul (by decide), Nat.mul_comm bound]
  exact Nat.mul_lt_mul_of_pos_right g.next_lt hbound

theorem below_lt (hbound : 0 < bound) (retries : Nat) (g : Generator) :
    (below bound retries g).1 < bound := by
  induction retries generalizing g with
  | zero => exact div_lt hbound g
  | succ retries ih =>
    unfold below
    dsimp only
    split
    case isTrue => exact div_lt hbound g
    case isFalse => exact ih g.next.2

theorem choose_lt (hbound : 0 < bound) (g : Generator) : (choose bound g).1 < bound :=
  below_lt hbound 1024 g

end Random.Generator

namespace Balancer

variable {endpoints : List Endpoint}

/-! ## One choice -/

@[simp]
theorem select_nil (b : Balancer) : b.select [] = (none, b) := rfl

/-- From a list with members one of them is chosen, in whatever way. -/
theorem exists_mem_select (b : Balancer) (hsome : endpoints ≠ []) :
    ∃ e ∈ endpoints, ∃ after, b.select endpoints = (some e, after) := by
  have hpos : 0 < endpoints.length := List.length_pos_iff.mpr hsome
  have hchosen {i : Nat} (hi : i < endpoints.length) :
      ∃ e ∈ endpoints, endpoints[i]? = some e :=
    ⟨endpoints[i], List.getElem_mem hi, List.getElem?_eq_getElem hi⟩
  cases b with
  | random g =>
    obtain ⟨e, hmem, he⟩ := hchosen (g.choose_lt hpos)
    refine ⟨e, hmem, .random (g.choose endpoints.length).2, ?_⟩
    unfold select
    rw [if_neg (mt List.isEmpty_iff.mp hsome), ← he]
  | roundRobin cursor =>
    obtain ⟨e, hmem, he⟩ := hchosen (Nat.mod_lt cursor hpos)
    exact ⟨e, hmem, _, he ▸ select_roundRobin cursor hsome⟩

/-! ## Choices one after the other -/

/-- The balancer behind a choice from each of some lists. -/
def afterAll (b : Balancer) (lists : List (List Endpoint)) : Balancer :=
  lists.foldl (fun b endpoints ↦ (b.select endpoints).2) b

@[simp]
theorem afterAll_append (b : Balancer) (lists others : List (List Endpoint)) :
    b.afterAll (lists ++ others) = (b.afterAll lists).afterAll others := List.foldl_append

@[simp]
theorem selectAll_append (b : Balancer) (lists others : List (List Endpoint)) :
    b.selectAll (lists ++ others) = b.selectAll lists ++ (b.afterAll lists).selectAll others := by
  induction lists generalizing b with
  | nil => rfl
  | cons endpoints lists ih => exact congrArg _ (ih (b.select endpoints).2)

/-- A balancer that takes turns goes on to do so, and its cursor stays within the lengths of the
lists. -/
theorem exists_afterAll_roundRobin (lists : List (List Endpoint)) (cursor : Nat) :
    ∃ after, (roundRobin cursor).afterAll lists = .roundRobin after ∧
      (after = cursor ∨ ∃ endpoints ∈ lists, after ≤ endpoints.length) := by
  induction lists generalizing cursor with
  | nil => exact ⟨cursor, rfl, .inl rfl⟩
  | cons endpoints lists ih =>
    by_cases hsome : endpoints = []
    case pos =>
      subst hsome
      obtain ⟨after, hafter, hbound⟩ := ih cursor
      refine ⟨after, hafter, hbound.imp_right ?_⟩
      exact fun ⟨others, hmem, hle⟩ ↦ ⟨others, List.mem_cons_of_mem _ hmem, hle⟩
    case neg =>
      obtain ⟨after, hafter, hbound⟩ := ih (cursor % endpoints.length + 1)
      refine ⟨after, ?_, .inr ?_⟩
      · rw [← hafter]
        exact congrArg (fun result ↦ afterAll result.2 lists) (select_roundRobin cursor hsome)
      · rcases hbound with rfl | ⟨others, hmem, hle⟩
        · exact ⟨endpoints, List.mem_cons_self,
            Nat.mod_lt cursor (List.length_pos_iff.mpr hsome)⟩
        · exact ⟨others, List.mem_cons_of_mem _ hmem, hle⟩

/-! ## Going round -/

/-- The positions that `m` turns visit in a list of length `n`. -/
def positions (cursor n m : Nat) : List Nat := (List.range m).map fun k ↦ (cursor + k) % n

/-- Behind the first position the turns go on. -/
@[simp]
theorem positions_succ (cursor n m : Nat) :
    positions cursor n (m + 1) = cursor % n :: positions (cursor % n + 1) n m := by
  unfold positions
  rw [List.range_succ_eq_map, List.map_cons, List.map_map, Nat.add_zero]
  refine congrArg _ (List.map_congr_left fun k _ ↦ ?_)
  show (cursor + (k + 1)) % n = (cursor % n + 1 + k) % n
  rw [Nat.add_assoc, Nat.mod_add_mod, Nat.add_comm 1 k]

theorem lt_of_mem_positions {cursor n m p : Nat} (hn : 0 < n) (h : p ∈ positions cursor n m) :
    p < n := by
  obtain ⟨k, -, rfl⟩ := List.mem_map.mp h
  exact Nat.mod_lt _ hn

/-- Turns that all go to one list visit its positions in a circle. -/
theorem selectAll_replicate (cursor m : Nat) (hsome : endpoints ≠ []) :
    (roundRobin cursor).selectAll (List.replicate m endpoints) =
      (positions cursor endpoints.length m).map (endpoints[·]?) := by
  induction m generalizing cursor with
  | zero => rfl
  | succ m ih =>
    simp [List.replicate_succ, selectAll, select_roundRobin cursor hsome, ih]

/-- A position is visited as often as numbers below `m` leave a certain remainder. -/
theorem count_positions {cursor n i : Nat} (hi : i < n) (m : Nat) :
    (positions cursor n m).count i = m.count (· ≡ n - cursor % n + i [MOD n]) := by
  have hvisit (k : Nat) : (cursor + k) % n = i ↔ k ≡ n - cursor % n + i [MOD n] := by
    have hcursor := Nat.mod_lt cursor (Nat.zero_lt_of_lt hi)
    have hround : cursor % n + (n - cursor % n + i) = i + n := by omega
    calc
      (cursor + k) % n = i ↔ cursor % n + k ≡ cursor % n + (n - cursor % n + i) [MOD n] := by
        rw [hround, Nat.ModEq, Nat.mod_add_mod, Nat.add_mod_right, Nat.mod_eq_of_lt hi]
      _ ↔ k ≡ n - cursor % n + i [MOD n] := ⟨.add_left_cancel' _, .add_left _⟩
  induction m with
  | zero => rfl
  | succ m ih =>
    rw [Nat.count_succ, ← ih, positions, List.range_succ, List.map_append, List.count_append,
      List.map_singleton, List.count_singleton]
    simp only [beq_iff_eq, hvisit]
    rfl

/-- No position is visited more than once more often than another. -/
theorem count_positions_eq_or {cursor n i : Nat} (hi : i < n) (m : Nat) :
    (positions cursor n m).count i = m / n ∨
      (positions cursor n m).count i = (m + n - 1) / n := by
  rw [count_positions hi, Nat.count_modEq_card _ (Nat.zero_lt_of_lt hi)]
  split
  case isTrue hrest =>
    right
    have hsplit := Nat.div_add_mod' m n
    have hrest' := Nat.mod_lt m (Nat.zero_lt_of_lt hi)
    refine (Nat.div_eq_of_lt_le ?_ ?_).symm
    all_goals
      simp only [Nat.succ_mul]
      omega
  case isFalse => exact .inl rfl

end Balancer

end FramedRpc
