import Mathlib.Data.List.DropRight
import Spectrum.Lib.Text

/-!
# Configuration files

Files of lines: comments start at `#`, lines in brackets name the section of the options that follow,
and an option is split at its first `=`.

* `Reads`: what a reader does with a file that was rendered line by line. It gives the options as they
  were, up to the comments and the blanks around the values.
* `reads_parse`: a reader as boost's `parse_config_file`, which throws an exception at every other line.
-/

namespace Spectrum.Lib.ConfigFile

/-! ## Blanks -/

def isBlank (c : Char) : Bool := c == ' ' || c == '\t' || c == '\r' || c == '\n'

/-- `trim_ws`. -/
def trim (s : String) : String :=
  .ofList ((s.toList.rdropWhile isBlank).dropWhile isBlank)

/-! ## Reading -/

inductive Line
  | blank
  | heading (section_ : String)
  | option (key value : String)
  | unrecognized
  deriving DecidableEq, Repr

/-- The prefix of the options in a section. -/
def prefixOf (name : List Char) : String :=
  if name.getLast? = some '.' then .ofList name else .ofList (name ++ ['.'])

/-- One line, in a section. -/
def readLine (section_ line : String) : Line :=
  let s := trim (before '#' line)
  if s = "" then .blank
  else if s.toList.head? = some '[' ∧ s.toList.getLast? = some ']' then
    .heading (prefixOf s.toList.tail.dropLast)
  else if '=' ∈ s.toList then .option (section_ ++ trim (before '=' s)) (trim (after '=' s))
  else .unrecognized

/-- The options of the lines. None if one of them throws an exception. -/
def readLines : String → List String → Option (List (String × String))
  | _, [] => some []
  | section_, line :: lines =>
    match readLine section_ line with
    | .blank => readLines section_ lines
    | .heading name => readLines name lines
    | .option key value => (readLines section_ lines).map ((key, value) :: ·)
    | .unrecognized => none

/-- `parse_config_file`, without a check of the options. -/
def parse (text : String) : Option (List (String × String)) := readLines "" (split '\n' text)

/-! ## Rendering -/

inductive Item
  | heading (name : String)
  | option (key value : String)
  deriving DecidableEq, Repr

def Item.render : Item → String
  | .heading name => "[" ++ name ++ "]"
  | .option key value => key ++ String.singleton '=' ++ value

/-- What is read of a value. -/
def received (value : String) : String := trim (before '#' value)

/-- A name that is read as it was written, and a value on one line. -/
def Item.WellFormed : Item → Prop
  | .heading name => '\n' ∉ name.toList ∧ '#' ∉ name.toList ∧ name.toList.getLast? ≠ some '.'
  | .option key value => '\n' ∉ key.toList ∧ '\n' ∉ value.toList ∧ '#' ∉ key.toList ∧
      '=' ∉ key.toList ∧ key ≠ "" ∧ trim key = key ∧ key.toList.head? ≠ some '['

instance (i : Item) : Decidable i.WellFormed :=
  match i with
  | .heading _ => inferInstanceAs (Decidable (_ ∧ _))
  | .option _ _ => inferInstanceAs (Decidable (_ ∧ _))

/-- The options of rendered items. -/
def optionsOf : String → List Item → List (String × String)
  | _, [] => []
  | _, .heading name :: items => optionsOf (name ++ ".") items
  | section_, .option key value :: items =>
    (section_ ++ key, received value) :: optionsOf section_ items

/-- A reader reads what was rendered. -/
def Reads (read : String → Option (List (String × String))) : Prop :=
  ∀ items : List Item, (∀ i ∈ items, i.WellFormed) →
    read (unlines '\n' (items.map Item.render)) = some (optionsOf "" items)

variable {l m : List Char} {c : Char} {s key value name section_ : String}

theorem before_of_split {t : String} (h : c ∉ s.toList) :
    before c (s ++ String.singleton c ++ t) = s := by
  have hlist : (s ++ String.singleton c ++ t).toList = s.toList ++ c :: t.toList := by simp
  rw [before, hlist, takeWhile_ne_append h, List.takeWhile_cons_of_neg (by simp), List.append_nil,
    String.ofList_toList]

theorem rdropWhile_append_cons (hc : isBlank c = false) (l m : List Char) :
    (l ++ c :: m).rdropWhile isBlank = l ++ c :: m.rdropWhile isBlank := by
  induction m using List.reverseRecOn with
  | nil => rw [List.rdropWhile_concat_neg _ _ _ (by rw [hc]; exact Bool.false_ne_true)]; rfl
  | append_singleton m a ih =>
    rw [← List.cons_append, ← List.append_assoc]
    by_cases ha : isBlank a = true
    · rw [List.rdropWhile_concat_pos _ _ _ ha, List.rdropWhile_concat_pos _ _ _ ha, ih]
    · rw [List.rdropWhile_concat_neg _ _ _ ha, List.rdropWhile_concat_neg _ _ _ ha,
        List.append_assoc, List.cons_append]

/-- Blanks at the end that are gone before do not matter. -/
theorem trim_rdropWhile (l : List Char) :
    trim (.ofList (l.rdropWhile isBlank)) = trim (.ofList l) := by
  unfold trim
  rw [String.toList_ofList, String.toList_ofList, List.rdropWhile_idempotent]

/-- A text that is not blank and has no blanks around it starts with another character. -/
theorem head_of_trim (h : trim s = s) (hne : s ≠ "") :
    ∃ a l, s.toList = a :: l ∧ isBlank a = false := by
  have hlist : (s.toList.rdropWhile isBlank).dropWhile isBlank = s.toList := by
    have := congrArg String.toList h
    rwa [trim, String.toList_ofList] at this
  cases hs : s.toList with
  | nil => exact absurd (String.toList_eq_nil_iff.mp hs) hne
  | cons a l =>
    refine ⟨a, l, rfl, Bool.eq_false_iff.mpr fun ha => ?_⟩
    have hdrop := List.dropWhile_idempotent (p := isBlank) (s.toList.rdropWhile isBlank)
    rw [hlist, hs, List.dropWhile_cons_of_pos ha] at hdrop
    have hlength := congrArg List.length hdrop
    have hle := (List.dropWhile_suffix isBlank (l := l)).length_le
    rw [List.length_cons] at hlength
    omega

theorem readLine_heading (h : (Item.heading name).WellFormed) :
    readLine section_ (Item.heading name).render = .heading (name ++ ".") := by
  obtain ⟨-, hhash, hdot⟩ := h
  have hlist : ("[" ++ name ++ "]").toList = '[' :: (name.toList ++ [']']) := by simp
  have hbefore : before '#' ("[" ++ name ++ "]") = "[" ++ name ++ "]" := by
    apply before_of_not_mem
    rw [hlist]
    simp [hhash]
  have htrim : trim ("[" ++ name ++ "]") = "[" ++ name ++ "]" := by
    rw [trim, hlist, ← List.cons_append, List.rdropWhile_concat_neg _ _ _ (by decide),
      List.cons_append, List.dropWhile_cons_of_neg (by decide), ← hlist, String.ofList_toList]
  have hne : "[" ++ name ++ "]" ≠ "" := fun heq => by
    have := congrArg String.toList heq
    rw [hlist] at this
    cases this
  unfold readLine Item.render
  dsimp only
  rw [hbefore, htrim, if_neg hne, hlist,
    if_pos ⟨rfl, by rw [← List.cons_append, List.getLast?_concat]⟩]
  rw [List.tail_cons, List.dropLast_concat, prefixOf, if_neg hdot]
  congr 1
  exact String.toList_inj.mp (by simp)

theorem readLine_option (h : (Item.option key value).WellFormed) :
    readLine section_ (Item.option key value).render =
      .option (section_ ++ key) (received value) := by
  obtain ⟨-, -, hhash, heq, hne, htrim, hhead⟩ := h
  obtain ⟨a, l, hkey, ha⟩ := head_of_trim htrim hne
  have hbefore : before '#' (key ++ String.singleton '=' ++ value) =
      key ++ String.singleton '=' ++ before '#' value := by
    apply before_append
    rw [String.toList_append]
    simp [hhash]
  have hline : trim (key ++ String.singleton '=' ++ before '#' value) =
      key ++ String.singleton '=' ++
        .ofList ((before '#' value).toList.rdropWhile isBlank) := by
    apply String.toList_inj.mp
    rw [trim, String.toList_ofList]
    simp only [String.toList_append, String.toList_singleton, String.toList_ofList,
      List.append_assoc, List.singleton_append]
    rw [rdropWhile_append_cons (by decide), hkey, List.cons_append,
      List.dropWhile_cons_of_neg (by rw [ha]; exact Bool.false_ne_true)]
  unfold readLine Item.render
  dsimp only
  rw [hbefore, hline]
  have hcons : (key ++ String.singleton '=' ++
      String.ofList ((before '#' value).toList.rdropWhile isBlank)).toList =
        a :: (l ++ '=' :: (before '#' value).toList.rdropWhile isBlank) := by
    simp [hkey]
  rw [if_neg, if_neg, if_pos, after_append heq, before_of_split heq, trim_rdropWhile,
    String.ofList_toList, htrim, received]
  · rw [hcons]
    simp
  · rintro ⟨hstart, -⟩
    rw [hcons, List.head?_cons] at hstart
    rw [hkey, List.head?_cons] at hhead
    exact hhead hstart
  · intro hempty
    rw [hempty] at hcons
    cases hcons

theorem reads_parse : Reads parse := by
  intro items h
  have hread : ∀ section_, readLines section_ (items.map Item.render ++ [""]) =
      some (optionsOf section_ items) := by
    induction items with
    | nil => exact fun _ => rfl
    | cons i items ih =>
      obtain ⟨hi, hitems⟩ := List.forall_mem_cons.mp h
      intro section_
      rw [List.map_cons, List.cons_append, readLines]
      cases i with
      | heading name =>
        rw [readLine_heading hi]
        exact ih hitems _
      | option key value =>
        rw [readLine_option hi]
        dsimp only
        rw [ih hitems, Option.map_some]
        rfl
  rw [parse, split_unlines]
  · exact hread ""
  · intro part hpart
    obtain ⟨i, hi, rfl⟩ := List.mem_map.mp hpart
    have hwell := h i hi
    cases i with
    | heading name => simp [Item.render, hwell.1]
    | option key value => simp [Item.render, hwell.1, hwell.2.1]

end Spectrum.Lib.ConfigFile
