import Spectrum.Wire.Plugin
import Spectrum.Wire.Server

/-!
# The receivers and the ends of their buffers

Both receive loops read the announced size at the front of the buffer, hand `&data[4]` to the parser
and erase the message. The two loops differ only in when they return (`returns`). An empty message
at the end of the buffer makes them refer to the element behind the last one.
-/

namespace Spectrum.Wire

open Lib

/-- What a loop does with its buffer of `size` bytes. -/
inductive Access
  | element (i size : Nat)
  | erase (first last size : Nat)
  deriving DecidableEq, Repr

namespace Access

def Inside : Access → Prop
  | element i size => i < size
  | erase first last size => first ≤ last ∧ last ≤ size

/-- A `std::string` has a NUL behind its last byte, which may be referred to. -/
def InsideString : Access → Prop
  | element i size => i ≤ size
  | erase first last size => first ≤ last ∧ last ≤ size

end Access

/-- One iteration of a loop: what it does with the buffer, the buffer that it leaves, and whether
the loop goes on. -/
structure Round where
  accesses : List Access
  data : Bytes
  goesOn : Bool

section Loop

variable (returns : Bytes → Bool)

/-- The iteration on a buffer. The difference of sizes is taken where there are four bytes, and the
sum is added to the iterator `begin()`, so neither wraps. -/
def round (data : Bytes) : Round :=
  match data with
  | b₀ :: b₁ :: b₂ :: b₃ :: _ =>
    let expected_size := expectedSize b₀ b₁ b₂ b₃
    if data.length - 4 < expected_size then ⟨[.element 0 data.length], data, false⟩
    else
      ⟨[.element 0 data.length, .element 4 data.length,
          .erase 0 (4 + expected_size) data.length],
        data.drop (4 + expected_size), !returns ((data.drop 4).take expected_size)⟩
  | _ => ⟨[], data, false⟩

theorem round_of_none {data : Bytes} (h : nextFrame data = none) :
    (round returns data).goesOn = false ∧ (round returns data).data = data ∧
      ∀ a ∈ (round returns data).accesses, a.Inside := by
  unfold round
  split
  · rename_i b₀ b₁ b₂ b₃ body
    have hshort : (b₀ :: b₁ :: b₂ :: b₃ :: body).length - 4 < expectedSize b₀ b₁ b₂ b₃ := by
      by_contra hlong
      have hbody : ¬ body.length < expectedSize b₀ b₁ b₂ b₃ := hlong
      rw [nextFrame, if_neg hbody] at h
      cases h
    simp only [if_pos hshort, true_and]
    intro a ha
    rw [List.mem_singleton.mp ha]
    exact Nat.succ_pos _
  · exact ⟨rfl, rfl, fun a ha => by cases ha⟩

theorem round_of_some {data f r : Bytes} (h : nextFrame data = some (f, r)) :
    data.length = 4 + f.length + r.length ∧ round returns data =
      ⟨[.element 0 data.length, .element 4 data.length, .erase 0 (4 + f.length) data.length], r,
        !returns f⟩ := by
  obtain ⟨b₀, b₁, b₂, b₃, rfl, hlen⟩ := nextFrame_eq_some h
  have hlength : (b₀ :: b₁ :: b₂ :: b₃ :: (f ++ r)).length = 4 + f.length + r.length := by
    simp only [List.length_cons, List.length_append]
    omega
  have hlong : ¬ (b₀ :: b₁ :: b₂ :: b₃ :: (f ++ r)).length - 4 < f.length := by
    rw [hlength]
    omega
  refine ⟨hlength, ?_⟩
  simp only [round, ← hlen, if_neg hlong]
  have hdrop : (b₀ :: b₁ :: b₂ :: b₃ :: (f ++ r)).drop (4 + f.length) = r := by
    rw [← List.drop_drop]
    exact List.drop_left
  rw [hdrop]
  simp

/-- An iteration that does not return removes the header at least. -/
theorem round_shorter {data : Bytes} (h : (round returns data).goesOn = true) :
    (round returns data).data.length + 4 ≤ data.length := by
  cases hnext : nextFrame data with
  | none =>
    rw [(round_of_none returns hnext).1] at h
    cases h
  | some p =>
    obtain ⟨f, r⟩ := p
    obtain ⟨hlength, heq⟩ := round_of_some returns hnext
    rw [heq, hlength]
    dsimp only
    omega

/-- `while (data.size() != 0)`. -/
def loop (data : Bytes) : List Access × Bytes :=
  if data.length = 0 then ([], data)
  else if _h : (round returns data).goesOn = true then
    ((round returns data).accesses ++ (loop (round returns data).data).1,
      (loop (round returns data).data).2)
  else ((round returns data).accesses, (round returns data).data)
termination_by data.length
decreasing_by all_goals
  have hshorter := round_shorter returns _h
  omega

/-- A call with more data. -/
def feed (s : List Access × Bytes) (chunk : Bytes) : List Access × Bytes :=
  (s.1 ++ (loop returns (s.2 ++ chunk)).1, (loop returns (s.2 ++ chunk)).2)

/-- What all calls do with the buffer, and the buffer. -/
def receiveAll (chunks : List Bytes) : List Access × Bytes := chunks.foldl (feed returns) ([], [])

/-- The loop does not return before the last message, which is empty and ends the buffer. -/
def EndsEmpty (data : Bytes) : Prop :=
  (frames.cut data).1.getLast? = some [] ∧ (frames.cut data).2 = [] ∧
    ∀ f ∈ (frames.cut data).1.dropLast, returns f = false

variable {returns} {data f r : Bytes}

theorem loop_of_none (h : nextFrame data = none) :
    (loop returns data).2 = data ∧ ∀ a ∈ (loop returns data).1, a.Inside := by
  obtain ⟨hstop, hdata, hinside⟩ := round_of_none returns h
  rw [loop]
  split
  · exact ⟨rfl, fun a ha => by cases ha⟩
  · rw [dif_neg (by simp [hstop])]
    exact ⟨hdata, hinside⟩

theorem loop_of_some (h : nextFrame data = some (f, r)) :
    loop returns data = (if returns f then
      ([.element 0 data.length, .element 4 data.length, .erase 0 (4 + f.length) data.length], r)
    else
      ([.element 0 data.length, .element 4 data.length, .erase 0 (4 + f.length) data.length] ++
        (loop returns r).1, (loop returns r).2)) := by
  obtain ⟨hlength, heq⟩ := round_of_some returns h
  rw [loop, if_neg (by omega), heq]
  cases hreturns : returns f with
  | true => simp
  | false => simp

/-- The buffer is left as by the reader of the frames. -/
theorem loop_snd {γ : Type} (act : Bytes → List γ × Bool) (data : Bytes) :
    (loop (fun f => (act f).2) data).2 = (frames.drain act data).2 := by
  induction data using Cutter.cut_induction (C := frames) with
  | hnone data h => rw [Cutter.drain_of_none h, (loop_of_none h).1]
  | hsome data f r h ih =>
    rw [Cutter.drain_of_some h, loop_of_some h]
    cases hreturns : (act f).2 with
    | true => rfl
    | false => exact ih

/-- The first message of a buffer with its header: the references are inside unless it is empty and
nothing follows. -/
theorem first_inside_iff (h : nextFrame data = some (f, r)) :
    (∀ a ∈ [Access.element 0 data.length, .element 4 data.length,
        .erase 0 (4 + f.length) data.length], a.Inside) ↔ ¬ (f = [] ∧ r = []) := by
  obtain ⟨hlength, -⟩ := round_of_some (fun _ => false) h
  have hempty : f = [] ∧ r = [] ↔ data.length = 4 := by
    rw [← List.length_eq_zero_iff, ← List.length_eq_zero_iff, hlength]
    omega
  rw [hempty]
  simp only [List.mem_cons, List.not_mem_nil, or_false, forall_eq_or_imp, forall_eq, Access.Inside]
  omega

theorem endsEmpty_of_none (h : nextFrame data = none) : ¬ EndsEmpty returns data := by
  rintro ⟨hlast, -, -⟩
  rw [Cutter.cut_of_none (C := frames) h] at hlast
  cases hlast

theorem endsEmpty_of_some (h : nextFrame data = some (f, r)) :
    EndsEmpty returns data ↔ (f = [] ∧ r = []) ∨ (returns f = false ∧ EndsEmpty returns r) := by
  have hcut := Cutter.cut_of_some (C := frames) h
  unfold EndsEmpty
  rw [hcut]
  by_cases hnil : (frames.cut r).1 = []
  · -- the message is the last one
    have hnone : nextFrame r = none := Cutter.cut_eq_nil_iff.mp hnil
    rw [Cutter.cut_of_none (C := frames) hnone]
    simp
  · have hne : r ≠ [] := by
      rintro rfl
      exact hnil (by rw [Cutter.cut_of_none (C := frames) rfl])
    have hlast : (f :: (frames.cut r).1).getLast? = (frames.cut r).1.getLast? := by
      cases hframes : (frames.cut r).1 with
      | nil => exact absurd hframes hnil
      | cons g gs => rfl
    rw [hlast, List.dropLast_cons_of_ne_nil hnil]
    simp only [List.forall_mem_cons, hne, and_false, false_or]
    constructor
    · rintro ⟨hempty, hrest, hf, hgo⟩
      exact ⟨hf, hempty, hrest, hgo⟩
    · rintro ⟨hf, hempty, hrest, hgo⟩
      exact ⟨hempty, hrest, hf, hgo⟩

/-- The loop stays in its buffer unless it reaches an empty message at the end. -/
theorem loop_inside_iff (data : Bytes) :
    (∀ a ∈ (loop returns data).1, a.Inside) ↔ ¬ EndsEmpty returns data := by
  induction data using Cutter.cut_induction (C := frames) with
  | hnone data h => exact ⟨fun _ => endsEmpty_of_none h, fun _ => (loop_of_none h).2⟩
  | hsome data f r h ih =>
    rw [loop_of_some h, endsEmpty_of_some h, not_or, ← first_inside_iff h]
    cases hreturns : returns f with
    | true => simp
    | false =>
      simp only [Bool.false_eq_true, if_false, List.forall_mem_append, true_and]
      exact and_congr_right fun _ => ih

theorem Access.Inside.string {a : Access} (h : a.Inside) : a.InsideString := by
  cases a with
  | element i size => exact Nat.le_of_lt h
  | erase first last size => exact h

/-- In a `std::string` the loop always refers to something. -/
theorem loop_insideString (data : Bytes) : ∀ a ∈ (loop returns data).1, a.InsideString := by
  induction data using Cutter.cut_induction (C := frames) with
  | hnone data h => exact fun a ha => ((loop_of_none h).2 a ha).string
  | hsome data f r h ih =>
    obtain ⟨hlength, -⟩ := round_of_some returns h
    have hfirst : ∀ a ∈ [Access.element 0 data.length, .element 4 data.length,
        .erase 0 (4 + f.length) data.length], a.InsideString := by
      simp only [List.mem_cons, List.not_mem_nil, or_false, forall_eq_or_imp, forall_eq,
        Access.InsideString]
      omega
    rw [loop_of_some h]
    cases hreturns : returns f with
    | true => exact hfirst
    | false => exact List.forall_mem_append.mpr ⟨hfirst, ih⟩

/-! ## Calls -/

theorem receiveAll_append (p : List Bytes) (c : Bytes) :
    receiveAll returns (p ++ [c]) = feed returns (receiveAll returns p) c := by
  unfold receiveAll
  rw [List.foldl_append]
  rfl

theorem receiveAll_snd {γ : Type} (act : Bytes → List γ × Bool) (chunks : List Bytes) :
    (receiveAll (fun f => (act f).2) chunks).2 = (chunks.foldl (frames.feed act) ([], [])).2 := by
  induction chunks using List.reverseRecOn with
  | nil => rfl
  | append_singleton p c ih =>
    rw [receiveAll_append, List.foldl_append]
    simp only [feed, Cutter.feed, List.foldl_cons, List.foldl_nil]
    rw [loop_snd, ih]

/-- Every call stays in the buffer unless it reaches an empty message at the end. -/
theorem receiveAll_inside_iff (chunks : List Bytes) :
    (∀ a ∈ (receiveAll returns chunks).1, a.Inside) ↔
      ∀ p c, p ++ [c] <+: chunks → ¬ EndsEmpty returns ((receiveAll returns p).2 ++ c) := by
  induction chunks using List.reverseRecOn with
  | nil => simp [receiveAll]
  | append_singleton q d ih =>
    rw [receiveAll_append, feed, List.forall_mem_append, ih, loop_inside_iff]
    constructor
    · rintro ⟨hbefore, hlast⟩ p c hpc
      rcases List.prefix_concat_iff.mp hpc with heq | hpc
      · obtain ⟨rfl, hcd⟩ := List.append_inj' heq rfl
        obtain rfl : c = d := by simpa using hcd
        exact hlast
      · exact hbefore p c hpc
    · intro h
      exact ⟨fun p c hpc => h p c (hpc.trans (List.prefix_append q [d])),
        h q d (List.prefix_refl _)⟩

theorem receiveAll_insideString (chunks : List Bytes) :
    ∀ a ∈ (receiveAll returns chunks).1, a.InsideString := by
  induction chunks using List.reverseRecOn with
  | nil => simp [receiveAll]
  | append_singleton q d ih =>
    rw [receiveAll_append]
    exact List.forall_mem_append.mpr ⟨ih, loop_insideString _⟩

end Loop

/-! ## The two receivers -/

section Receivers

variable (parse : Bytes → Option WrapperMessage)

/-- After a message that parses and has no handler. -/
def Server.returns (body : Bytes) : Bool := (Server.act parse body).2

/-- After a message that does not parse too. -/
def Plugin.returns (body : Bytes) : Bool := (Plugin.act parse body).2

def Server.accesses (chunks : List Bytes) : List Access :=
  (receiveAll (Server.returns parse) chunks).1

def Plugin.accesses (chunks : List Bytes) : List Access :=
  (receiveAll (Plugin.returns parse) chunks).1

theorem Server.receiveAll_snd (chunks : List Bytes) :
    (receiveAll (Server.returns parse) chunks).2 = (Server.receive parse chunks).2 := by
  unfold Server.receive
  rw [Server.handleDataRead_eq_feed]
  exact Wire.receiveAll_snd (Server.act parse) chunks

theorem Plugin.receiveAll_snd (chunks : List Bytes) :
    (receiveAll (Plugin.returns parse) chunks).2 = (Plugin.receive parse chunks).2 := by
  unfold Plugin.receive
  rw [Plugin.handleDataRead_eq_feed]
  exact Wire.receiveAll_snd (Plugin.act parse) chunks

/-- Each receiver forms references and ranges in its buffer only if and only if no call reaches an
empty message that ends the buffer; the one of the backends is a `std::string` and refers to the
NUL there. An iteration that goes on removes four bytes at least. -/
theorem accesses_inside_iff (chunks : List Bytes) :
    ((∀ a ∈ Server.accesses parse chunks, a.Inside) ↔ ∀ p c, p ++ [c] <+: chunks →
      ¬ EndsEmpty (Server.returns parse) ((Server.receive parse p).2 ++ c)) ∧
    ((∀ a ∈ Plugin.accesses parse chunks, a.Inside) ↔ ∀ p c, p ++ [c] <+: chunks →
      ¬ EndsEmpty (Plugin.returns parse) ((Plugin.receive parse p).2 ++ c)) ∧
    (∀ a ∈ Plugin.accesses parse chunks, a.InsideString) ∧
    ∀ returns data, (round returns data).goesOn = true →
      (round returns data).data.length + 4 ≤ data.length := by
  have hserver := @receiveAll_inside_iff (Server.returns parse) chunks
  have hplugin := @receiveAll_inside_iff (Plugin.returns parse) chunks
  simp only [Server.receiveAll_snd] at hserver
  simp only [Plugin.receiveAll_snd] at hplugin
  exact ⟨hserver, hplugin, receiveAll_insideString chunks,
    fun returns data => round_shorter returns⟩

end Receivers

/-- A backend announces an empty message, and nothing follows. -/
theorem not_inside_of_empty : Access.element 4 4 ∈ Server.accesses Sample.parse [[0, 0, 0, 0]] ∧
    ¬ (Access.element 4 4).Inside := by
  have hnext : nextFrame [0, 0, 0, 0] = some ([], []) := by decide +kernel
  refine ⟨?_, Nat.lt_irrefl 4⟩
  simp only [Server.accesses, receiveAll, List.foldl_cons, List.foldl_nil, feed, List.nil_append,
    loop_of_some hnext]
  split <;> simp

end Spectrum.Wire
