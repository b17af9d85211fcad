import Mathlib.Data.List.Induction

/-!
# Cutting a stream into frames

A `Cutter` takes one frame from the start of a buffer when the buffer holds it completely.
Two properties are all that is needed: it makes the buffer shorter, and more data behind a
complete frame does not change it. Then a stream has one decomposition into complete frames
and a rest (`cut`), and `cut_append` says that it does not depend on where the stream was
divided.

A reader keeps a buffer and takes frames from it (`drain`) until none is complete or a frame
makes it stop. It keeps up with the stream exactly when in every call only the last of the
frames that the call completes makes it stop (`keepsUp_iff`).
-/

namespace Spectrum.Lib

structure Cutter (β : Type*) where
  /-- The first frame of a buffer and what follows it. -/
  next : List β → Option (List β × List β)
  shorter : ∀ {a f r}, next a = some (f, r) → r.length < a.length
  extends_append : ∀ {a f r} (b : List β), next a = some (f, r) → next (a ++ b) = some (f, r ++ b)

namespace Cutter

variable {β γ : Type*} (C : Cutter β)

/-- The complete frames at the start of a stream, and the rest. -/
def cut (a : List β) : List (List β) × List β :=
  match _h : C.next a with
  | none => ([], a)
  | some (f, r) => (f :: (cut r).1, (cut r).2)
termination_by a.length
decreasing_by all_goals exact C.shorter _h

variable {C} {a b f r : List β}

theorem cut_of_none (h : C.next a = none) : C.cut a = ([], a) := by
  rw [cut]
  split
  · rfl
  · rename_i heq
    rw [h] at heq
    cases heq

theorem cut_of_some (h : C.next a = some (f, r)) :
    C.cut a = (f :: (C.cut r).1, (C.cut r).2) := by
  rw [cut]
  split
  · rename_i heq
    rw [h] at heq
    cases heq
  · rename_i heq
    rw [h] at heq
    cases heq
    rfl

/-- Induction along the frames of a stream. -/
theorem cut_induction {P : List β → Prop} (hnone : ∀ a, C.next a = none → P a)
    (hsome : ∀ a f r, C.next a = some (f, r) → P r → P a) (a : List β) : P a := by
  induction hn : a.length using Nat.strongRecOn generalizing a with
  | _ n ih =>
    cases h : C.next a with
    | none => exact hnone a h
    | some p =>
      obtain ⟨f, r⟩ := p
      have hlen := C.shorter h
      exact hsome a f r h (ih r.length (hn ▸ hlen) r rfl)

theorem next_rest (a : List β) : C.next (C.cut a).2 = none := by
  induction a using cut_induction (C := C) with
  | hnone a h => rw [cut_of_none h]; exact h
  | hsome a f r h ih => rw [cut_of_some h]; exact ih

/-- The stream may be divided anywhere. -/
theorem cut_append (a b : List β) : C.cut (a ++ b) =
    ((C.cut a).1 ++ (C.cut ((C.cut a).2 ++ b)).1, (C.cut ((C.cut a).2 ++ b)).2) := by
  induction a using cut_induction (C := C) with
  | hnone a h => rw [cut_of_none h]; rfl
  | hsome a f r h ih => rw [cut_of_some h, cut_of_some (C.extends_append b h), ih]; rfl

/-! ## Readers -/

section Reader

variable (C) (act : List β → List γ × Bool)

/-- Take frames from the buffer. `act` says what a frame causes and whether the reader
returns after it. -/
def drain (a : List β) : List γ × List β :=
  match _h : C.next a with
  | none => ([], a)
  | some (f, r) =>
    if (act f).2 then ((act f).1, r) else ((act f).1 ++ (drain r).1, (drain r).2)
termination_by a.length
decreasing_by all_goals exact C.shorter _h

/-- One call of the reader with new data. -/
def feed (s : List γ × List β) (chunk : List β) : List γ × List β :=
  (s.1 ++ (C.drain act (s.2 ++ chunk)).1, (C.drain act (s.2 ++ chunk)).2)

/-- What the complete frames of a stream cause. -/
def outcome (stream : List β) : List γ := (C.cut stream).1.flatMap fun f => (act f).1

/-- The frames that a call with `chunk` completes, after the data `seen`. -/
def completed (seen chunk : List β) : List (List β) := (C.cut ((C.cut seen).2 ++ chunk)).1

/-- After the calls so far, every complete frame has been taken and had its effect. -/
def Current (s : List γ × List β) (stream : List β) : Prop :=
  s.1 = C.outcome act stream ∧ C.next s.2 = none

/-- The reader is current after every call. -/
def KeepsUp (chunks : List (List β)) : Prop :=
  ∀ p, p <+: chunks → C.Current act (p.foldl (C.feed act) ([], [])) p.flatten

/-- In every call only the last completed frame may make the reader return. -/
def Unhindered (chunks : List (List β)) : Prop :=
  ∀ p c, p ++ [c] <+: chunks → ∀ f ∈ (C.completed p.flatten c).dropLast, (act f).2 = false

variable {C} {act}

theorem drain_of_none (h : C.next a = none) : C.drain act a = ([], a) := by
  rw [drain]
  split
  · rfl
  · rename_i heq
    rw [h] at heq
    cases heq

theorem drain_of_some (h : C.next a = some (f, r)) : C.drain act a =
    if (act f).2 then ((act f).1, r)
    else ((act f).1 ++ (C.drain act r).1, (C.drain act r).2) := by
  rw [drain]
  split
  · rename_i heq
    rw [h] at heq
    cases heq
  · rename_i heq
    rw [h] at heq
    cases heq
    rfl

theorem cut_eq_nil_iff : (C.cut a).1 = [] ↔ C.next a = none := by
  constructor
  · intro h
    cases hn : C.next a with
    | none => rfl
    | some p =>
      rw [cut_of_some hn] at h
      cases h
  · intro h
    rw [cut_of_none h]

/-- A reader that is not stopped before the last frame takes them all. -/
theorem drain_of_unhindered (h : ∀ f ∈ (C.cut a).1.dropLast, (act f).2 = false) :
    C.drain act a = (C.outcome act a, (C.cut a).2) := by
  induction a using cut_induction (C := C) with
  | hnone a hn => simp [drain_of_none hn, outcome, cut_of_none hn]
  | hsome a f r hn ih =>
    rw [cut_of_some hn] at h
    rw [drain_of_some hn, outcome, cut_of_some hn]
    by_cases hr : (C.cut r).1 = []
    · have hnone := cut_eq_nil_iff.mp hr
      simp [drain_of_none hnone, cut_of_none hnone]
    · rw [List.dropLast_cons_of_ne_nil hr] at h
      have hf := h f List.mem_cons_self
      rw [hf, ih fun g hg => h g (List.mem_cons_of_mem f hg)]
      simp [outcome]

/-- A reader that is stopped before the last frame leaves a complete one. -/
theorem unhindered_of_drain (h : C.next (C.drain act a).2 = none) :
    ∀ f ∈ (C.cut a).1.dropLast, (act f).2 = false := by
  induction a using cut_induction (C := C) with
  | hnone a hn => simp [cut_of_none hn]
  | hsome a f r hn ih =>
    rw [drain_of_some hn] at h
    rw [cut_of_some hn]
    by_cases hr : (C.cut r).1 = []
    · simp [hr]
    · rw [List.dropLast_cons_of_ne_nil hr]
      cases hf : (act f).2 with
      | true =>
        rw [hf] at h
        exact absurd (cut_eq_nil_iff.mpr h) hr
      | false =>
        rw [hf] at h
        intro g hg
        rcases List.mem_cons.mp hg with rfl | hg
        · exact hf
        · exact ih h g hg

theorem outcome_append (a b : List β) :
    C.outcome act (a ++ b) = C.outcome act a ++ C.outcome act ((C.cut a).2 ++ b) := by
  unfold outcome
  rw [cut_append, List.flatMap_append]

/-- A frame that causes at most one thing. -/
theorem outcome_toList {g : List β → Option γ} (hg : ∀ f, (act f).1 = (g f).toList) (a : List β) :
    C.outcome act a = (C.cut a).1.filterMap g := by
  unfold outcome
  induction (C.cut a).1 with
  | nil => rfl
  | cons f fs ih =>
    rw [List.flatMap_cons, ih, List.filterMap_cons, hg]
    cases g f <;> rfl

/-- A frame that some call completes is a frame of the stream. -/
theorem mem_cut_of_completed {chunks p : List (List β)} {c : List β} (hp : p ++ [c] <+: chunks)
    (hf : f ∈ C.completed p.flatten c) : f ∈ (C.cut chunks.flatten).1 := by
  obtain ⟨t, rfl⟩ := hp
  have hflat : (p ++ [c] ++ t).flatten = p.flatten ++ (c ++ t.flatten) := by simp
  rw [hflat, cut_append p.flatten, ← List.append_assoc, cut_append]
  exact List.mem_append_right _ (List.mem_append_left _ hf)

/-- A current reader holds the rest of the stream. -/
theorem foldl_feed_of_unhindered {chunks : List (List β)} (h : C.Unhindered act chunks) :
    chunks.foldl (C.feed act) ([], []) =
      (C.outcome act chunks.flatten, (C.cut chunks.flatten).2) := by
  induction chunks using List.reverseRecOn with
  | nil =>
    have hnone : C.next ([] : List β) = none := by
      cases hn : C.next ([] : List β) with
      | none => rfl
      | some p => exact absurd (C.shorter hn) (by simp)
    simp [outcome, cut_of_none hnone]
  | append_singleton p c ih =>
    have hp : C.Unhindered act p := fun q d hq => h q d (hq.trans (List.prefix_append p [c]))
    have hlast := h p c (List.prefix_refl _)
    have hflat : (p ++ [c]).flatten = p.flatten ++ c := by simp
    rw [List.foldl_append, ih hp, List.foldl_cons, List.foldl_nil, feed,
      drain_of_unhindered hlast, hflat, outcome_append p.flatten, cut_append p.flatten]

theorem keepsUp_of_unhindered {chunks : List (List β)} (h : C.Unhindered act chunks) :
    C.KeepsUp act chunks := by
  intro p hp
  have hp' : C.Unhindered act p := fun q d hq => h q d (hq.trans hp)
  rw [foldl_feed_of_unhindered hp']
  exact ⟨rfl, next_rest _⟩

theorem unhindered_of_keepsUp {chunks : List (List β)} (h : C.KeepsUp act chunks) :
    C.Unhindered act chunks := by
  induction chunks using List.reverseRecOn with
  | nil =>
    intro p c hp
    simp at hp
  | append_singleton p c ih =>
    have hp : C.Unhindered act p :=
      ih fun q hq => h q (hq.trans (List.prefix_append p [c]))
    have hlast := (h (p ++ [c]) (List.prefix_refl _)).2
    rw [List.foldl_append, foldl_feed_of_unhindered hp, List.foldl_cons, List.foldl_nil] at hlast
    intro q d hq
    rcases List.prefix_concat_iff.mp hq with heq | hq
    · obtain ⟨rfl, hcd⟩ := List.append_inj' heq rfl
      obtain rfl : d = c := by simpa using hcd
      exact unhindered_of_drain hlast
    · exact hp q d hq

/-- A reader keeps up with the stream if and only if no call is stopped before its last
frame. -/
theorem keepsUp_iff {chunks : List (List β)} :
    C.KeepsUp act chunks ↔ C.Unhindered act chunks :=
  ⟨unhindered_of_keepsUp, keepsUp_of_unhindered⟩

end Reader

end Cutter

end Spectrum.Lib
