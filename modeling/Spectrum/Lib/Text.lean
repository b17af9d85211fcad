import Mathlib.Data.List.TakeWhile
import Mathlib.Data.String.Basic

/-!
# The first occurrence of a character in a text

* `before c s` is the part of `s` before the first `c`, `after c s` the part behind it. A text without
  the character is whole in both.
* A text without `c` in front of another one is passed over by both.
* `split c s` are the parts between the characters `c`, and `unlines c` puts a `c` behind every part;
  `split_unlines` takes the parts back.
-/

namespace Spectrum.Lib

/-- `s.substr(0, s.find(c))`. -/
def before (c : Char) (s : String) : String := String.ofList (s.toList.takeWhile (· ≠ c))

/-- `s.substr(s.find(c) + 1)`. -/
def after (c : Char) (s : String) : String :=
  if c ∈ s.toList then String.ofList (s.toList.dropWhile (· ≠ c)).tail else s

/-- `s.substr(n)`, which throws an exception behind the end. -/
def substr (s : String) (n : Nat) : Option String :=
  if n ≤ s.toList.length then some (String.ofList (s.toList.drop n)) else none

/-- `boost::split`, which keeps empty parts. -/
def split (c : Char) (s : String) : List String := (s.toList.splitOn c).map String.ofList

def unlines (c : Char) (parts : List String) : String :=
  parts.foldr (fun part text => part ++ String.singleton c ++ text) ""

section

variable {c d : Char} {s t : String} {l m : List Char}

theorem takeWhile_ne_append (h : c ∉ l) :
    (l ++ m).takeWhile (· ≠ c) = l ++ m.takeWhile (· ≠ c) :=
  List.takeWhile_append_of_pos fun _ ha => decide_eq_true fun heq => h (heq ▸ ha)

theorem dropWhile_ne_append (h : c ∉ l) :
    (l ++ m).dropWhile (· ≠ c) = m.dropWhile (· ≠ c) :=
  List.dropWhile_append_of_pos fun _ ha => decide_eq_true fun heq => h (heq ▸ ha)

theorem before_append (h : c ∉ s.toList) : before c (s ++ t) = s ++ before c t := by
  rw [before, String.toList_append, takeWhile_ne_append h, String.ofList_append,
    String.ofList_toList, before]

theorem not_mem_before (c : Char) (s : String) : c ∉ (before c s).toList := by
  rw [before, String.toList_ofList]
  intro hmem
  have hne := List.mem_takeWhile_imp hmem
  exact absurd rfl (of_decide_eq_true hne)

theorem before_of_not_mem (h : c ∉ s.toList) : before c s = s := by
  have happend := before_append (t := "") h
  rwa [String.append_empty, show before c "" = "" from rfl, String.append_empty] at happend

@[simp]
theorem before_before (c : Char) (s : String) : before c (before c s) = before c s :=
  before_of_not_mem (not_mem_before c s)

/-- The text behind the first `c`. -/
theorem after_append (h : c ∉ s.toList) : after c (s ++ String.singleton c ++ t) = t := by
  have hmem : c ∈ (s ++ String.singleton c ++ t).toList := by simp
  rw [after, if_pos hmem, String.append_assoc, String.toList_append, dropWhile_ne_append h]
  simp

theorem eq_before_append_after (h : c ∈ s.toList) :
    s = before c s ++ String.singleton c ++ after c s := by
  have hne : s.toList.dropWhile (· ≠ c) ≠ [] := by
    intro hnil
    simpa using List.dropWhile_eq_nil_iff.mp hnil c h
  have hhead : (s.toList.dropWhile (· ≠ c)).head hne = c := by
    simpa using List.head_dropWhile_not (· ≠ c) hne
  have hcons := List.cons_head_tail hne
  rw [hhead] at hcons
  refine String.toList_inj.mp ?_
  rw [after, if_pos h, before]
  simp only [String.toList_append, String.toList_ofList, String.toList_singleton,
    List.append_assoc, List.singleton_append, hcons]
  exact (List.takeWhile_append_dropWhile).symm

theorem length_before_add_after (h : c ∈ s.toList) :
    (before c s).toList.length + 1 + (after c s).toList.length = s.toList.length := by
  conv_rhs => rw [eq_before_append_after h]
  simp only [String.toList_append, String.toList_singleton, List.length_append, List.length_cons,
    List.length_nil]

theorem length_before_lt (h : c ∈ s.toList) : (before c s).toList.length < s.toList.length := by
  have hlength := length_before_add_after h
  omega

theorem length_after_lt (h : c ∈ s.toList) : (after c s).toList.length < s.toList.length := by
  have hlength := length_before_add_after h
  omega

theorem split_of_not_mem (h : c ∉ s.toList) : split c s = [s] := by
  rw [split, List.splitOn_eq_singleton h, List.map_singleton, String.ofList_toList]

theorem split_append_split (c : Char) (s t : String) :
    split c (s ++ String.singleton c ++ t) = split c s ++ split c t := by
  have hlist : (s ++ String.singleton c ++ t).toList = s.toList ++ c :: t.toList := by
    simp
  rw [split, hlist, List.splitOn_append_cons_self, List.map_append, split, split]

theorem split_append (h : c ∉ s.toList) (t : String) :
    split c (s ++ String.singleton c ++ t) = s :: split c t := by
  have hlist : (s ++ String.singleton c ++ t).toList = s.toList ++ c :: t.toList := by
    simp
  rw [split, hlist, List.splitOn_append_cons_self_of_not_mem h, List.map_cons, String.ofList_toList,
    split]

theorem not_mem_of_mem_splitOn {part : List Char} (h : part ∈ l.splitOn c) : c ∉ part := by
  induction l generalizing part with
  | nil =>
    rw [List.splitOn_nil, List.mem_singleton] at h
    rw [h]
    exact List.not_mem_nil
  | cons d l ih =>
    rw [List.splitOn_cons_eq_if_modifyHead] at h
    split at h
    · rcases List.mem_cons.mp h with rfl | hrest
      · exact List.not_mem_nil
      · exact ih hrest
    · rename_i hd
      cases hparts : l.splitOn c with
      | nil => exact absurd hparts (List.splitOn_ne_nil c l)
      | cons first rest =>
        rw [hparts, List.modifyHead_cons] at h
        rw [hparts] at ih
        rcases List.mem_cons.mp h with rfl | hrest
        · rw [List.mem_cons, not_or]
          exact ⟨fun heq => hd (by simp [heq]), ih List.mem_cons_self⟩
        · exact ih (List.mem_cons_of_mem _ hrest)

theorem split_unlines {parts : List String} (h : ∀ part ∈ parts, c ∉ part.toList) :
    split c (unlines c parts) = parts ++ [""] := by
  induction parts with
  | nil => rfl
  | cons part parts ih =>
    obtain ⟨hpart, hparts⟩ := List.forall_mem_cons.mp h
    rw [unlines, List.foldr_cons, split_append hpart]
    exact congrArg _ (ih hparts)

theorem unlines_append (parts : List String) (part : String) :
    unlines c (parts ++ [part]) = unlines c parts ++ part ++ String.singleton c := by
  induction parts with
  | nil => simp [unlines]
  | cons first parts ih =>
    have hcons : ∀ rest, unlines c (first :: rest) = first ++ String.singleton c ++ unlines c rest :=
      fun _ => rfl
    rw [List.cons_append, hcons, hcons, ih]
    simp only [String.append_assoc]

end

end Spectrum.Lib
