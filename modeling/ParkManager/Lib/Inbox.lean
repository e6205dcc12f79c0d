import Mathlib.Data.Finset.Insert
import Mathlib.Data.List.Basic
import Mathlib.Data.List.Enum
import Mathlib.Tactic.SplitIfs

/-!
# Inboxes

Messages that arrive one after the other and are taken out in any order, each at
most once.  A message is known by its position among the arrivals, so that equal
messages stay apart.

Proved here, for any type of messages:

* `oldest_spec`: the position `oldest p` finds is that of the first message with
  `p` that was not taken, and `oldest_eq_none_iff`: when there is none;
* `pending_arrive`, `take_cases`: what an arrival and a take do to the messages
  that wait;
* `pending_take_of_disjoint`: a take leaves the messages of another kind alone.
-/

variable {μ : Type*}

structure Inbox (μ : Type*) where
  arrived : List μ
  /-- The positions of the messages taken out. -/
  taken : Finset ℕ
  taken_lt : ∀ i ∈ taken, i < arrived.length

namespace Inbox

def empty : Inbox μ := ⟨[], ∅, fun _ hi => absurd hi (Finset.notMem_empty _)⟩

def arrive (b : Inbox μ) (m : μ) : Inbox μ where
  arrived := b.arrived ++ [m]
  taken := b.taken
  taken_lt i hi := by
    have := b.taken_lt i hi
    rw [List.length_append, List.length_singleton]
    omega

/-- The messages with `p` that wait, oldest first, with their positions. -/
def pending (b : Inbox μ) (p : μ → Bool) : List (μ × ℕ) :=
  b.arrived.zipIdx.filter fun x => decide (x.2 ∉ b.taken) && p x.1

/-- The position of the oldest message with `p` that waits. -/
def oldest (b : Inbox μ) (p : μ → Bool) : Option ℕ := (b.pending p).head?.map Prod.snd

/-- The messages with `p` that wait, oldest first. -/
def queue (b : Inbox μ) (p : μ → Bool) : List μ := (b.pending p).map Prod.fst

theorem mem_pending {b : Inbox μ} {p : μ → Bool} {m : μ} {i : ℕ} :
    (m, i) ∈ b.pending p ↔ b.arrived[i]? = some m ∧ i ∉ b.taken ∧ p m = true := by
  unfold pending
  rw [List.mem_filter, List.mem_zipIdx_iff_getElem?, Bool.and_eq_true, decide_eq_true_iff]

theorem lt_of_mem_pending {b : Inbox μ} {p : μ → Bool} {x : μ × ℕ} (h : x ∈ b.pending p) :
    x.2 < b.arrived.length :=
  (List.getElem?_eq_some_iff.mp (mem_pending.mp h).1).1

/-- Take the message at the position out. -/
def mark (b : Inbox μ) (i : ℕ) : Inbox μ :=
  if h : i < b.arrived.length then
    ⟨b.arrived, insert i b.taken, fun j hj => by
      rcases Finset.mem_insert.mp hj with rfl | hj
      · exact h
      · exact b.taken_lt j hj⟩
  else b

@[simp] theorem arrived_mark (b : Inbox μ) (i : ℕ) : (b.mark i).arrived = b.arrived := by
  unfold mark
  split_ifs <;> rfl

/-- Take the oldest message with `p` out. -/
def take (b : Inbox μ) (p : μ → Bool) : Option μ × Inbox μ :=
  match (b.pending p).head? with
  | some x => (some x.1, b.mark x.2)
  | none => (none, b)

/-! ## The oldest message -/

theorem pairwise_pending (b : Inbox μ) (p : μ → Bool) :
    (b.pending p).Pairwise fun x y => x.2 < y.2 := by
  refine List.Pairwise.filter _ ?_
  have h : (b.arrived.zipIdx.map Prod.snd).Pairwise (· < ·) := by
    rw [List.zipIdx_map_snd]
    exact List.pairwise_lt_range'
  exact List.pairwise_map.mp h

theorem oldest_spec {b : Inbox μ} {p : μ → Bool} {i : ℕ} (h : b.oldest p = some i) :
    ∃ m, b.arrived[i]? = some m ∧ i ∉ b.taken ∧ p m = true ∧
      ∀ j n, b.arrived[j]? = some n → j ∉ b.taken → p n = true → i ≤ j := by
  obtain ⟨⟨m, i'⟩, hhead, rfl⟩ := Option.map_eq_some_iff.mp h
  obtain ⟨rest, hrest⟩ := List.head?_eq_some_iff.mp hhead
  have hm : (m, i') ∈ b.pending p := by
    rw [hrest]
    exact List.mem_cons_self
  obtain ⟨hget, hfree, hp⟩ := mem_pending.mp hm
  refine ⟨m, hget, hfree, hp, fun j n hj hjf hn => ?_⟩
  have hmem : (n, j) ∈ b.pending p := mem_pending.mpr ⟨hj, hjf, hn⟩
  have hpair := b.pairwise_pending p
  rw [hrest] at hmem hpair
  rcases List.mem_cons.mp hmem with e | hmem
  · exact (Prod.mk.inj e).2 ▸ le_rfl
  · exact ((List.pairwise_cons.mp hpair).1 _ hmem).le

theorem oldest_eq_none_iff {b : Inbox μ} {p : μ → Bool} :
    b.oldest p = none ↔
      ∀ i m, b.arrived[i]? = some m → i ∉ b.taken → p m = false := by
  unfold oldest
  rw [Option.map_eq_none_iff, List.head?_eq_none_iff, List.eq_nil_iff_forall_not_mem]
  constructor
  · intro h i m hget hfree
    rw [← Bool.not_eq_true]
    exact fun hp => h (m, i) (mem_pending.mpr ⟨hget, hfree, hp⟩)
  · rintro h ⟨m, i⟩ hx
    obtain ⟨hget, hfree, hp⟩ := mem_pending.mp hx
    rw [h i m hget hfree] at hp
    cases hp

/-! ## What waits after a step -/

@[simp] theorem pending_empty (p : μ → Bool) : (empty : Inbox μ).pending p = [] := rfl

theorem pending_arrive (b : Inbox μ) (m : μ) (p : μ → Bool) :
    (b.arrive m).pending p =
      b.pending p ++ if p m = true then [(m, b.arrived.length)] else [] := by
  have hnew : b.arrived.length ∉ b.taken := fun h => lt_irrefl _ (b.taken_lt _ h)
  unfold pending arrive
  simp only [List.zipIdx_append, List.filter_append, List.zipIdx_singleton, Nat.zero_add]
  congr 1
  rw [List.filter_singleton]
  simp [hnew]

theorem mark_pending {b : Inbox μ} {i : ℕ} (hi : i < b.arrived.length) (p : μ → Bool) :
    (b.mark i).pending p = (b.pending p).filter fun x => decide (x.2 ≠ i) := by
  unfold mark
  rw [dif_pos hi]
  unfold pending
  rw [List.filter_filter]
  apply List.filter_congr
  intro x _
  simp only [Finset.mem_insert, not_or, Bool.decide_and, ne_eq]
  exact Bool.and_assoc ..

/-- Taking the message at one position out leaves the others as they are. -/
theorem filter_position {l₁ l₂ : List (μ × ℕ)} {x : μ × ℕ}
    (h : (l₁ ++ x :: l₂).Pairwise fun y z => y.2 < z.2) :
    (l₁ ++ x :: l₂).filter (fun y => decide (y.2 ≠ x.2)) = l₁ ++ l₂ := by
  obtain ⟨-, hr, hcross⟩ := List.pairwise_append.mp h
  have h₁ : l₁.filter (fun y => decide (y.2 ≠ x.2)) = l₁ := by
    rw [List.filter_eq_self]
    exact fun y hy => decide_eq_true (hcross y hy x List.mem_cons_self).ne
  have h₂ : l₂.filter (fun y => decide (y.2 ≠ x.2)) = l₂ := by
    rw [List.filter_eq_self]
    exact fun y hy => decide_eq_true ((List.pairwise_cons.mp hr).1 y hy).ne'
  rw [List.filter_append, List.filter_cons_of_neg (by simp), h₁, h₂]

/-- What a take of the messages with `p` and `q` does to those with `p`: either
none of them has `q`, or the oldest that has is taken out from among them. -/
theorem take_cases (b : Inbox μ) (p q : μ → Bool) :
    ((∀ x ∈ b.pending p, q x.1 = false) ∧ b.oldest (fun m => p m && q m) = none ∧
      b.take (fun m => p m && q m) = (none, b)) ∨
    ∃ l₁ m i l₂, b.pending p = l₁ ++ (m, i) :: l₂ ∧ (∀ x ∈ l₁, q x.1 = false) ∧ q m = true ∧
      b.oldest (fun m => p m && q m) = some i ∧
      b.take (fun m => p m && q m) = (some m, b.mark i) ∧
      (b.mark i).pending p = l₁ ++ l₂ := by
  have hfilter : b.pending (fun m => p m && q m) = (b.pending p).filter fun x => q x.1 := by
    unfold pending
    rw [List.filter_filter]
    apply List.filter_congr
    intro x _
    rw [Bool.and_comm (q x.1), Bool.and_assoc]
  have hhead : (b.pending (fun m => p m && q m)).head? = (b.pending p).find? fun x => q x.1 := by
    rw [hfilter, List.head?_filter]
  cases hfind : (b.pending p).find? (fun x => q x.1) with
  | none =>
    rw [hfind] at hhead
    refine Or.inl ⟨fun x hx => ?_, ?_, ?_⟩
    · simpa using List.find?_eq_none.mp hfind x hx
    · rw [oldest, hhead]
      rfl
    · rw [take, hhead]
  | some x =>
    rw [hfind] at hhead
    obtain ⟨hq, l₁, l₂, hsplit, hl₁⟩ := List.find?_eq_some_iff_append.mp hfind
    have hmem : x ∈ b.pending p := by
      rw [hsplit]
      simp
    refine Or.inr ⟨l₁, x.1, x.2, l₂, hsplit, fun y hy => by simpa using hl₁ y hy, hq, ?_, ?_, ?_⟩
    · rw [oldest, hhead]
      rfl
    · rw [take, hhead]
    · rw [mark_pending (lt_of_mem_pending hmem), hsplit]
      exact filter_position (hsplit ▸ b.pairwise_pending p)

/-- A take of messages of one kind leaves those of another waiting. -/
theorem pending_take_of_disjoint (b : Inbox μ) {p r : μ → Bool}
    (h : ∀ m, p m = true → r m = false) : (b.take p).2.pending r = b.pending r := by
  unfold take
  cases hhead : (b.pending p).head? with
  | none => rfl
  | some x =>
    have hmem : x ∈ b.pending p := List.mem_of_mem_head? hhead
    obtain ⟨hget, hfree, hp⟩ := mem_pending.mp hmem
    rw [mark_pending (lt_of_mem_pending hmem), List.filter_eq_self]
    rintro ⟨n, j⟩ hy
    obtain ⟨hgetj, -, hr⟩ := mem_pending.mp hy
    refine decide_eq_true fun e => ?_
    dsimp only at e
    rw [e, hget] at hgetj
    rw [← Option.some.inj hgetj, h _ hp] at hr
    cases hr

end Inbox
