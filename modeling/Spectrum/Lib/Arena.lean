import Mathlib.Data.List.Count
import Spectrum.Lib.SortedMap

/-!
# Objects that are made with `new` and given back with `delete`

An object is the number of its `new`. The objects that were deleted are recorded in the order of their
deletions; that none is deleted twice is a field of the type, and deleting an object that is not there
is undefined.
-/

namespace Spectrum.Lib

universe u

structure Arena (α : Type u) where
  objects : SortedMap Nat α
  next : Nat
  deleted : List Nat
  fresh : ∀ p, next ≤ p → objects.get p = none
  once : ∀ p, deleted.count p = if p < next ∧ objects.get p = none then 1 else 0

namespace Arena

variable {α : Type u} {a b c : Arena α} {p q : Nat} {x : α} {ps qs : List Nat}

def empty : Arena α where
  objects := {}
  next := 0
  deleted := []
  fresh _ _ := rfl
  once _ := by simp

def get (a : Arena α) (p : Nat) : Option α := a.objects.get p

theorem lt_next (h : a.get p = some x) : p < a.next := by
  by_contra hge
  have hnone := a.fresh p (Nat.le_of_not_lt hge)
  rw [get, hnone] at h
  cases h

theorem count_deleted (hlt : p < a.next) (h : a.get p = none) : a.deleted.count p = 1 := by
  rw [a.once, if_pos ⟨hlt, h⟩]

theorem count_deleted_of_some (h : a.get p = some x) : a.deleted.count p = 0 := by
  rw [a.once, if_neg]
  rintro ⟨-, hnone⟩
  rw [get, hnone] at h
  cases h

theorem mem_deleted : p ∈ a.deleted ↔ p < a.next ∧ a.get p = none := by
  rw [← List.count_pos_iff, a.once]
  unfold get
  split <;> simp_all

/-- The object is at `a.next`. -/
def new (a : Arena α) (x : α) : Arena α where
  objects := a.objects.set a.next x
  next := a.next + 1
  deleted := a.deleted
  fresh p hp := by
    rw [SortedMap.get_set_of_ne (by omega)]
    exact a.fresh p (by omega)
  once p := by
    rw [a.once, SortedMap.get_set]
    by_cases hp : p = a.next
    · simp [hp]
    · rw [if_neg hp]
      have hlt : p < a.next + 1 ↔ p < a.next := by omega
      simp only [hlt]

def modify (a : Arena α) (p : Nat) (f : α → α) : Arena α where
  objects := (a.objects.get p).elim a.objects fun x => a.objects.set p (f x)
  next := a.next
  deleted := a.deleted
  fresh q hq := by
    cases hp : a.objects.get p with
    | none => exact a.fresh q hq
    | some x =>
      have hlt := lt_next hp
      rw [Option.elim_some, SortedMap.get_set_of_ne (by omega)]
      exact a.fresh q hq
  once q := by
    cases hp : a.objects.get p with
    | none => exact a.once q
    | some x =>
      rw [a.once, Option.elim_some, SortedMap.get_set]
      by_cases hq : q = p
      · simp [hq, hp]
      · rw [if_neg hq]

def delete (a : Arena α) (p : Nat) : Option (Arena α) :=
  if h : (a.objects.get p).isSome then
    some {
      objects := a.objects.erase p
      next := a.next
      deleted := p :: a.deleted
      fresh := fun q hq => by
        rw [SortedMap.get_erase, a.fresh q hq, ite_self]
      once := fun q => by
        obtain ⟨x, hx⟩ := Option.isSome_iff_exists.mp h
        rw [List.count_cons, a.once, SortedMap.get_erase]
        by_cases hq : q = p
        · simp [hq, hx, lt_next hx]
        · have hne : (p == q) = false := beq_false_of_ne (Ne.symm hq)
          simp [hq, hne] }
  else none

def deleteAll : List Nat → Arena α → Option (Arena α)
  | [], a => some a
  | p :: ps, a => (a.delete p).bind (deleteAll ps)

theorem get_new : (a.new x).get p = if p = a.next then some x else a.get p := SortedMap.get_set ..

@[simp]
theorem next_new : (a.new x).next = a.next + 1 := rfl

@[simp]
theorem next_modify (f : α → α) : (a.modify p f).next = a.next := rfl

theorem get_modify (f : α → α) : (a.modify p f).get q = if q = p then (a.get p).map f else a.get q := by
  change ((a.objects.get p).elim a.objects fun x => a.objects.set p (f x)).get q =
    if q = p then (a.objects.get p).map f else a.objects.get q
  cases hp : a.objects.get p with
  | none =>
    rw [Option.elim_none, Option.map_none]
    split
    · rename_i hq
      rw [hq, hp]
    · rfl
  | some y => rw [Option.elim_some, SortedMap.get_set, Option.map_some]

/-- `b` is what is left of `a` without the objects `ps`. -/
structure Dropped (ps : List Nat) (a b : Arena α) : Prop where
  get : ∀ q, b.get q = if q ∈ ps then none else a.get q
  next : b.next = a.next

theorem Dropped.refl : Dropped [] a a := ⟨by simp, rfl⟩

theorem Dropped.trans (h : Dropped ps a b) (h' : Dropped qs b c) : Dropped (ps ++ qs) a c := by
  refine ⟨fun q => ?_, h'.next.trans h.next⟩
  rw [h'.get, h.get]
  by_cases hq : q ∈ qs <;> by_cases hp : q ∈ ps <;> simp [hq, hp]

theorem exists_delete (h : a.get p = some x) : ∃ b, a.delete p = some b ∧ Dropped [p] a b := by
  have hsome : (a.objects.get p).isSome := by
    unfold get at h
    rw [h]
    rfl
  rw [delete, dif_pos hsome]
  refine ⟨_, rfl, fun q => ?_, rfl⟩
  change (a.objects.erase p).get q = if q ∈ [p] then none else a.objects.get q
  rw [SortedMap.get_erase]
  simp only [List.mem_singleton]

/-- Objects that are all there and all different can be deleted one after the other. -/
theorem exists_deleteAll (hlive : ∀ p ∈ ps, (a.get p).isSome) (hnodup : ps.Nodup) :
    ∃ b, a.deleteAll ps = some b ∧ Dropped ps a b := by
  induction ps generalizing a with
  | nil => exact ⟨a, rfl, .refl⟩
  | cons p ps ih =>
    obtain ⟨hp, hps⟩ := List.nodup_cons.mp hnodup
    obtain ⟨x, hx⟩ := Option.isSome_iff_exists.mp (hlive p List.mem_cons_self)
    obtain ⟨b, hdelete, hb⟩ := exists_delete hx
    have hrest : ∀ q ∈ ps, (b.get q).isSome := by
      intro q hq
      have hne : q ∉ [p] := fun hmem => hp (List.mem_singleton.mp hmem ▸ hq)
      rw [hb.get, if_neg hne]
      exact hlive q (List.mem_cons_of_mem _ hq)
    obtain ⟨c, hall, hc⟩ := ih hrest hps
    exact ⟨c, by rw [deleteAll, hdelete, Option.bind_some, hall], hb.trans hc⟩

end Arena

end Spectrum.Lib
