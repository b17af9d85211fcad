import Spectrum.Account.Lookup
import Spectrum.Lib.SortedMap
import Spectrum.Lib.Text

/-!
# `getConversation` on the map

The method is not `const`: it reads `m_convs` with `find` and with `operator[]`, which stores `NULL`
under a name that has no entry. It splits a name at the first slash and calls itself with both
parts. The part in front has no slash, so that this call only looks the part up.
-/

namespace Spectrum.ConversationManager

open Lib

/-- `m_convs`; `none` stands for `NULL`. -/
abbrev Convs (α : Type) := SortedMap String (Option α)

variable {α : Type}

/-- `m_convs[name]`. -/
def subscript (name : String) (m : Convs α) : Option α × Convs α :=
  match m.get name with
  | some c => (c, m)
  | none => (none, m.set name none)

def getConversation (name : String) (m : Convs α) : Option α × Convs α :=
  if (m.get name).isSome then subscript name m
  else if _h : '/' ∉ name.toList then (none, m)
  else
    -- handle PMs
    let room := before '/' name
    let nick := after '/' name
    let found := getConversation room m
    if found.1.isNone then (none, found.2)
    else getConversation nick found.2
termination_by name.toList.length
decreasing_by
  · exact length_before_lt (not_not.mp _h)
  · exact length_after_lt (not_not.mp _h)

section Lookup

variable {m : Convs α} {name : String} {e : Option α} {c : α}

theorem getConversation_of_get (h : m.get name = some e) : getConversation name m = (e, m) := by
  rw [getConversation, if_pos (by rw [h]; rfl), subscript, h]

theorem getConversation_of_plain (h : m.get name = none) (hplain : '/' ∉ name.toList) :
    getConversation name m = (none, m) := by
  rw [getConversation, if_neg (by simp [h]), dif_pos hplain]

/-- The lookup of a name without a slash. -/
theorem getConversation_plain (hplain : '/' ∉ name.toList) (m : Convs α) :
    getConversation name m = ((m.get name).getD none, m) := by
  cases hget : m.get name with
  | none => exact getConversation_of_plain hget hplain
  | some e => exact getConversation_of_get hget

theorem getConversation_of_slash (h : m.get name = none) (hslash : '/' ∈ name.toList) :
    getConversation name m =
      if ((m.get (before '/' name)).getD none).isNone then (none, m)
      else getConversation (after '/' name) m := by
  rw [getConversation, if_neg (by simp [h]), dif_neg (not_not.mpr hslash)]
  dsimp only
  rw [getConversation_plain (not_mem_before '/' name)]

/-- What holds of a name with an entry and of one without a slash, and of a name when it holds of
the part behind the slash. -/
theorem name_induction {motive : String → Prop} (m : Convs α)
    (found : ∀ name e, m.get name = some e → motive name)
    (plain : ∀ name, m.get name = none → '/' ∉ name.toList → motive name)
    (slash : ∀ name, m.get name = none → '/' ∈ name.toList → motive (after '/' name) →
      motive name) (name : String) : motive name := by
  cases hget : m.get name with
  | some e => exact found name e hget
  | none =>
    by_cases hslash : '/' ∈ name.toList
    · exact slash name hget hslash (name_induction m found plain slash (after '/' name))
    · exact plain name hget hslash
termination_by name.toList.length
decreasing_by exact length_after_lt hslash

theorem getConversation_snd (name : String) (m : Convs α) : (getConversation name m).2 = m := by
  induction name using name_induction m with
  | found name e h => rw [getConversation_of_get h]
  | plain name h hplain => rw [getConversation_of_plain h hplain]
  | slash name h hslash ih =>
    rw [getConversation_of_slash h hslash]
    split
    · rfl
    · exact ih

theorem getConversation_stored (h : (getConversation name m).1 = some c) :
    ∃ key, m.get key = some (some c) := by
  induction name using name_induction m with
  | found name e hget =>
    rw [getConversation_of_get hget] at h
    exact ⟨name, hget.trans (congrArg some h)⟩
  | plain name hget hplain =>
    rw [getConversation_of_plain hget hplain] at h
    cases h
  | slash name hget hslash ih =>
    rw [getConversation_of_slash hget hslash] at h
    split at h
    · cases h
    · exact ih h

theorem getConversation_eq_some_iff (h : m.get name = none) :
    (getConversation name m).1 = some c ↔ '/' ∈ name.toList ∧
      (∃ room, m.get (before '/' name) = some (some room)) ∧
      (getConversation (after '/' name) m).1 = some c := by
  by_cases hslash : '/' ∈ name.toList
  · rw [getConversation_of_slash h hslash]
    cases hroom : m.get (before '/' name) with
    | none => simp
    | some e =>
      cases e with
      | none => simp
      | some room => simp [hslash]
  · rw [getConversation_of_plain h hslash]
    simp [hslash]

end Lookup

/-- The lookup of any name in any map: it leaves the map as it is and gives `NULL` or something
stored, the entry of the full name first. Without such an entry it gives what the rest behind the
first slash stands for, if there is a conversation for the part in front. -/
theorem getConversation_spec (name : String) (m : Convs α) :
    (getConversation name m).2 = m ∧
      (∀ c, (getConversation name m).1 = some c → ∃ key, m.get key = some (some c)) ∧
      (∀ e, m.get name = some e → (getConversation name m).1 = e) ∧
      (m.get name = none → ∀ c, (getConversation name m).1 = some c ↔ '/' ∈ name.toList ∧
        (∃ room, m.get (before '/' name) = some (some room)) ∧
        (getConversation (after '/' name) m).1 = some c) :=
  ⟨getConversation_snd name m, fun _ => getConversation_stored,
    fun e h => by rw [getConversation_of_get h], fun h _ => getConversation_eq_some_iff h⟩

end Spectrum.ConversationManager

/-! ## The conversations of a user and of an account -/

namespace Spectrum

open Lib

namespace Conversations

theorem segments_of_plain {l : List Char} (h : '/' ∉ l) (acc : List Char) :
    segments acc l = [acc.reverse ++ l] := by
  induction l generalizing acc with
  | nil => simp [segments]
  | cons c l ih =>
    obtain ⟨hc, hl⟩ := List.ne_and_not_mem_of_not_mem_cons h
    rw [segments, if_neg (Ne.symm hc), ih hl]
    simp

theorem segments_append {l : List Char} (h : '/' ∉ l) (acc r : List Char) :
    segments acc (l ++ '/' :: r) = (acc.reverse ++ l) :: segments [] r := by
  induction l generalizing acc with
  | nil => simp [segments]
  | cons c l ih =>
    obtain ⟨hc, hl⟩ := List.ne_and_not_mem_of_not_mem_cons h
    rw [List.cons_append, segments, if_neg (Ne.symm hc), ih hl]
    simp

variable {name : String} {cs : Conversations}

theorem getConversation_of_plain (hplain : '/' ∉ name.toList) :
    getConversation name cs = find name cs := by
  rw [getConversation, segments_of_plain hplain]
  simp [getSegments]

theorem getConversation_of_slash (h : find name cs = none) (hslash : '/' ∈ name.toList) :
    getConversation name cs =
      if (find (before '/' name) cs).isNone then none else getConversation (after '/' name) cs := by
  have hname : name = before '/' name ++ String.singleton '/' ++ after '/' name :=
    eq_before_append_after hslash
  have hsegments : segments [] name.toList =
      (before '/' name).toList :: segments [] (after '/' name).toList := by
    conv_lhs => rw [hname]
    simpa using segments_append (not_mem_before '/' name) [] (after '/' name).toList
  have hwhole : String.ofList (List.intercalate ['/'] (segments [] name.toList)) = name := by
    rw [intercalate_segments]
    exact String.ofList_toList
  rw [hsegments] at hwhole
  have hne := segments_ne_nil [] (after '/' name).toList
  rw [getConversation, getConversation, hsegments]
  generalize segments [] (after '/' name).toList = rest at hwhole hne
  cases rest with
  | nil => exact absurd rfl hne
  | cons s rest => simp only [getSegments, hwhole, h, String.ofList_toList]

end Conversations

namespace Account.Chats

variable {name : String} {cs : Chats}

theorem getConversation_of_plain (hplain : '/' ∉ name.toList) :
    cs.getConversation name = cs.find name := by
  cases hfind : cs.find name with
  | some kc => exact getConversation_of_find hfind
  | none =>
    rw [getConversation, Conversations.getConversation_of_plain hplain, find_base, hfind]
    rfl

theorem getConversation_of_slash (h : cs.find name = none) (hslash : '/' ∈ name.toList) :
    cs.getConversation name =
      if (cs.find (before '/' name)).isNone then none
      else cs.getConversation (after '/' name) := by
  have hbase : Conversations.find name cs.base = none := by
    rw [find_base, h]
    rfl
  rw [getConversation, Conversations.getConversation_of_slash hbase hslash, find_base,
    Option.isNone_map]
  split
  · rfl
  · rfl

end Account.Chats

namespace ConversationManager

/-- The lookup in the list of an account is the one in its map. -/
theorem getConversation_eq {m : Convs Account.Conversation} {cs : Account.Chats}
    (hm : ∀ key, m.get key = (cs.find key).map fun kc => some kc.2) (name : String) :
    (getConversation name m).1 = (cs.getConversation name).map Prod.snd := by
  have hnone : ∀ {key}, m.get key = none → cs.find key = none := by
    intro key h
    rwa [hm, Option.map_eq_none_iff] at h
  induction name using name_induction m with
  | found name e h =>
    obtain ⟨kc, hfind, rfl⟩ := Option.map_eq_some_iff.mp ((hm name).symm.trans h)
    rw [getConversation_of_get h, Account.Chats.getConversation_of_find hfind]
    rfl
  | plain name h hplain =>
    rw [getConversation_of_plain h hplain, Account.Chats.getConversation_of_plain hplain, hnone h]
    rfl
  | slash name h hslash ih =>
    rw [getConversation_of_slash h hslash, hm,
      Account.Chats.getConversation_of_slash (hnone h) hslash]
    cases cs.find (before '/' name) with
    | none => rfl
    | some kc => exact ih

end ConversationManager

end Spectrum
