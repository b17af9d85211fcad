import Mathlib.Data.String.Basic
import Mathlib.Data.List.Perm.Subperm
import Spectrum.Lib.Json

/-!
# Messages of the Slack real-time API

`SlackRTM::sendMessage` puts the text of a JSON object together. The message is escaped by a
replacement of its quotes; backslashes and control characters stay as they are, and the channel is not
escaped.

* `delivers_iff`: which messages arrive.
-/

namespace Spectrum.Slack

open Lib

/-- `boost::replace_all(m, "\"", "\\\"")`. -/
def replaceQuotes (s : List Char) : List Char :=
  s.flatMap fun c => if c = '\x22' then ['\\', '\x22'] else [c]

/-- `SlackRTM`, with the texts that it gave to its `WebSocketClient`. The counter is an
`unsigned long`. -/
structure Rtm where
  counter : Nat := 0
  written : List (List Char) := []

/-- `SlackRTM::sendMessage`. -/
def Rtm.sendMessage (s : Rtm) (channel message : String) : Rtm :=
  let counter := (s.counter + 1) % 2 ^ 64
  let m := replaceQuotes message.toList
  let msg := "\x7b\"id\": ".toList ++ (toString counter).toList ++
    ", \"type\": \"message\", \"channel\":\"".toList ++ channel.toList ++ "\", \"text\":\"".toList ++
    m ++ "\"\x7d".toList
  { counter, written := s.written ++ [msg] }

/-- The names of the members. -/
def memberNames : List (List Char) :=
  ["id".toList, "type".toList, "channel".toList, "text".toList]

/-- The text is a JSON object with these members, each at most once, and the message as its text. -/
def WellFormed (text : List Char) (message : String) : Prop :=
  ∃ members, Json.parse text = some (.object members) ∧ (members.map Prod.fst).Nodup ∧
    (∀ e ∈ members, e.1 ∈ memberNames) ∧ ("text".toList, Json.string message.toList) ∈ members

def Delivers (s : Rtm) (channel message : String) : Prop :=
  ∃ text, (s.sendMessage channel message).written = s.written ++ [text] ∧ WellFormed text message

/-- The channel can stand in a JSON string. -/
def InString (channel : String) : Prop := ∃ s, Json.Body channel.toList s

/-- There is no backslash and no control character in the message. -/
def Unescaped (message : String) : Prop :=
  ∀ c ∈ message.toList, c ≠ '\\' ∧ Json.isControl c = false

/-! ## The message -/

section Message

variable {m : List Char}

theorem replaceQuotes_cons (c : Char) (m : List Char) :
    replaceQuotes (c :: m) = (if c = '\x22' then ['\\', '\x22'] else [c]) ++ replaceQuotes m :=
  List.flatMap_cons

theorem length_replaceQuotes (m : List Char) :
    (replaceQuotes m).length = m.length + m.count '\x22' := by
  induction m with
  | nil => rfl
  | cons c m ih =>
    rw [replaceQuotes_cons, List.length_append, ih, List.length_cons, List.count_cons]
    by_cases hc : c = '\x22'
    · simp only [hc, if_true, beq_self_eq_true, List.length_cons, List.length_nil]
      omega
    · rw [if_neg hc, if_neg (by simpa using hc)]
      simp only [List.length_cons, List.length_nil]
      omega

theorem body_replaceQuotes (h : ∀ c ∈ m, c ≠ '\\' ∧ Json.isControl c = false) :
    Json.Body (replaceQuotes m) m := by
  induction m with
  | nil => exact .nil
  | cons c m ih =>
    obtain ⟨⟨hslash, hcontrol⟩, hm⟩ := List.forall_mem_cons.mp h
    rw [replaceQuotes_cons]
    by_cases hc : c = '\x22'
    · rw [if_pos hc, hc]
      exact .cons (.escaped (by decide)) (ih hm)
    · rw [if_neg hc]
      exact .cons (.plain hc hslash hcontrol) (ih hm)

/-- The replaced message stands for the message only if nothing else was to be escaped: a backslash
takes a second character with it, and the rest is too short then. -/
theorem unescaped_of_body (h : Json.Body (replaceQuotes m) m) :
    ∀ c ∈ m, c ≠ '\\' ∧ Json.isControl c = false := by
  induction m with
  | nil => exact fun c hc => absurd hc List.not_mem_nil
  | cons c m ih =>
    rw [replaceQuotes_cons] at h
    generalize htext : (if c = '\x22' then ['\\', '\x22'] else [c]) ++ replaceQuotes m = text at h
    cases h with
    | @cons u raw _ _ hu hraw =>
      have hle := hraw.length_le
      rw [← length_replaceQuotes] at hle
      have hlength := congrArg List.length htext
      rw [List.length_append, List.length_append] at hlength
      by_cases hc : c = '\x22'
      · rw [if_pos hc] at htext hlength
        have hunit := hu.length_le
        rw [if_pos hc] at hunit
        simp only [List.length_cons, List.length_nil] at hlength
        obtain ⟨-, rfl⟩ := List.append_inj htext (by simp only [List.length_cons, List.length_nil]; omega)
        refine List.forall_mem_cons.mpr ⟨?_, ih hraw⟩
        rw [hc]
        exact ⟨by decide, by decide⟩
      · rw [if_neg hc] at htext hlength
        have hunit := hu.length_le
        rw [if_neg hc] at hunit
        simp only [List.length_cons, List.length_nil] at hlength
        obtain ⟨rfl, rfl⟩ := List.append_inj htext (by simp only [List.length_cons, List.length_nil]; omega)
        refine List.forall_mem_cons.mpr ⟨?_, ih hraw⟩
        cases hu with
        | plain _ hslash hcontrol => exact ⟨hslash, hcontrol⟩

theorem guarded_replaceQuotes (m : List Char) : Json.Guarded (replaceQuotes m) := by
  induction m with
  | nil => exact Json.guarded_of_not_mem List.not_mem_nil
  | cons c m ih =>
    rw [replaceQuotes_cons]
    refine Json.Guarded.append ?_ ih
    split
    · exact (Json.Unit.escaped (by decide : Json.escaped '\x22' = some '\x22')).guarded
    · rename_i hc
      exact Json.guarded_of_not_mem (by simpa using Ne.symm hc)

end Message

/-! ## The counter -/

theorem digits_ne_zero {n : Nat} (h : n ≠ 0) : (Nat.toDigits 10 n).head? ≠ some '0' := by
  induction n using Nat.strong_induction_on with
  | h n ih =>
    rw [Nat.toDigits_eq_if (by decide)]
    split
    · rename_i hlt
      have hdigit : ∀ n, n < 10 → n ≠ 0 → n.digitChar ≠ '0' := by decide
      simpa using hdigit n hlt h
    · rename_i hge
      have hdiv : n / 10 ≠ 0 := by omega
      obtain ⟨d, tail, heq⟩ := List.exists_cons_of_ne_nil (Nat.toDigits_ne_nil (n := n / 10) (b := 10))
      have hhead := ih (n / 10) (by omega) hdiv
      rw [heq] at hhead ⊢
      exact hhead

theorem readValue_counter (n : Nat) (rest : List Char) (fuel : Nat) :
    Json.readValue (fuel + 1) ((toString n).toList ++ ',' :: rest) =
      some (.number (toString n).toList, ',' :: rest) := by
  have hlist : (toString n).toList = Nat.toDigits 10 n := by
    rw [Nat.toString_eq_ofList_toDigits, String.toList_ofList]
  rw [hlist]
  refine Json.readValue_digits Nat.toDigits_ne_nil (fun a ha => ?_) ?_ (by decide) rest fuel
  · exact Nat.isDigit_of_mem_toDigits (by decide) (by decide) ha
  · by_cases hn : n = 0
    · left
      rw [hn]
      rfl
    · exact .inr (digits_ne_zero hn)

/-! ## The text -/

/-- The text from the channel on. -/
def tailOf (channel m : List Char) : List Char :=
  channel ++ '\x22' :: ',' :: ' ' :: '\x22' :: ("text".toList ++ '\x22' :: ':' :: '\x22' ::
    (replaceQuotes m ++ ['\x22', '\x7d']))

/-- The text of a message. -/
def messageText (n : Nat) (channel m : List Char) : List Char :=
  '\x7b' :: '\x22' :: ("id".toList ++ '\x22' :: ':' :: ' ' :: ((toString n).toList ++ ',' :: ' ' ::
    '\x22' :: ("type".toList ++ '\x22' :: ':' :: ' ' :: '\x22' :: ("message".toList ++ '\x22' ::
      ',' :: ' ' :: '\x22' :: ("channel".toList ++ '\x22' :: ':' :: '\x22' :: tailOf channel m)))))

section Text

variable {s : Rtm} {channel message : String} {n : Nat} {c m : List Char}

theorem sendMessage_written (s : Rtm) (channel message : String) :
    (s.sendMessage channel message).written =
      s.written ++ [messageText ((s.counter + 1) % 2 ^ 64) channel.toList message.toList] := by
  simp [Rtm.sendMessage, messageText, tailOf]

theorem body_word {w : List Char} (h : (w.all fun c => c ≠ '\x22' && c ≠ '\\' && !Json.isControl c)) :
    Json.Body w w := by
  refine Json.body_plain fun c hc => ?_
  simpa [and_assoc] using List.all_eq_true.mp h c hc

/-- The first two members are read, whatever the channel and the message are. -/
theorem parse_messageText (n : Nat) (c m : List Char) : ∃ fuel, Json.parse (messageText n c m) =
    ((Json.readValue (fuel + 2) ('\x22' :: tailOf c m)).bind
      (Json.readRest (fuel + 2) "channel".toList)).bind fun r =>
        if Json.skipSpace r.2 = [] then
          some (.object (("id".toList, .number (toString n).toList) ::
            ("type".toList, .string "message".toList) :: r.1))
        else none := by
  obtain ⟨fuel, hfuel⟩ : ∃ fuel, (messageText n c m).length = fuel + 5 :=
    ⟨(messageText n c m).length - 5, by simp only [messageText, List.length_cons, List.length_append]; omega⟩
  refine ⟨fuel, ?_⟩
  unfold Json.parse
  rw [hfuel, messageText, Json.readValue_object (Json.expect_ne (by decide) (by decide))]
  rw [Json.readMembers_eq (Json.expect_cons (by decide)) (body_word (by decide))
    (Json.expect_cons (by decide)), Json.readValue_space, readValue_counter, Option.bind_some,
    Json.readRest_comma]
  rw [Json.readMembers_eq ((Json.expect_space _ _).trans (Json.expect_cons (by decide)))
    (body_word (by decide)) (Json.expect_cons (by decide)), Json.readValue_space,
    Json.readValue_string (body_word (by decide)), Option.bind_some, Json.readRest_comma]
  rw [Json.readMembers_eq ((Json.expect_space _ _).trans (Json.expect_cons (by decide)))
    (body_word (by decide)) (Json.expect_cons (by decide))]
  simp only [Option.map_map, Option.bind_eq_bind, Option.bind_map]
  rfl

theorem readValue_tail {channel : List Char} (h : Json.Body channel c) (hm : Json.Body (replaceQuotes m) m)
    (fuel : Nat) : (Json.readValue (fuel + 2) ('\x22' :: tailOf channel m)).bind
      (Json.readRest (fuel + 2) "channel".toList) =
        some ([("channel".toList, .string c), ("text".toList, .string m)], []) := by
  rw [tailOf, Json.readValue_string h, Option.bind_some, Json.readRest_comma]
  rw [Json.readMembers_eq ((Json.expect_space _ _).trans (Json.expect_cons (by decide)))
    (body_word (by decide)) (Json.expect_cons (by decide)), Json.readValue_string hm,
    Option.bind_some, Json.readRest_brace]
  rfl

theorem wellFormed_of_body (h : Json.Body channel.toList c)
    (hm : Json.Body (replaceQuotes message.toList) message.toList) :
    WellFormed (messageText n channel.toList message.toList) message := by
  obtain ⟨fuel, hparse⟩ := parse_messageText n channel.toList message.toList
  rw [readValue_tail h hm, Option.bind_some, if_pos (by rfl)] at hparse
  refine ⟨_, hparse, by simp, ?_, by simp⟩
  simp [memberNames]

/-- The tail of a text can only be cut where the channel and the message end: from its end on, every
quote that opens or closes a string is known. -/
theorem cut_tail {channel raw w₀ w₁ name w₂ w₃ b w₄ w₅ t t' : List Char}
    (h : tailOf channel m = raw ++ '\x22' :: (w₀ ++ ',' :: (w₁ ++ '\x22' :: (name ++ '\x22' ::
      (w₂ ++ ':' :: (w₃ ++ '\x22' :: (b ++ '\x22' :: (w₄ ++ '\x7d' :: w₅))))))))
    (hw₀ : ∀ a ∈ w₀, Json.isSpace a) (hw₁ : ∀ a ∈ w₁, Json.isSpace a)
    (hw₂ : ∀ a ∈ w₂, Json.isSpace a) (hw₃ : ∀ a ∈ w₃, Json.isSpace a)
    (hw₄ : ∀ a ∈ w₄, Json.isSpace a) (hw₅ : ∀ a ∈ w₅, Json.isSpace a)
    (hname : Json.Body name t) (hb : Json.Body b t') :
    channel = raw ∧ replaceQuotes m = b := by
  have hquote : ∀ {w}, (∀ a ∈ w, Json.isSpace a) → '\x22' ∉ w :=
    fun hw => Json.ne_of_spaces hw (by decide)
  have hcomma : ∀ {w}, (∀ a ∈ w, Json.isSpace a) → ∀ s, (s ++ ',' :: w).getLast? ≠ some '\\' :=
    fun hw => Json.getLast?_ne_of_spaces hw (by decide)
  have hcolon : ∀ {w}, (∀ a ∈ w, Json.isSpace a) → ∀ s, (s ++ ':' :: w).getLast? ≠ some '\\' :=
    fun hw => Json.getLast?_ne_of_spaces hw (by decide)
  -- the quote that closes the message is the last one
  have hend : (channel ++ '\x22' :: ',' :: ' ' :: '\x22' :: ("text".toList ++ '\x22' :: ':' ::
      '\x22' :: replaceQuotes m)) ++ '\x22' :: ['\x7d'] =
        (raw ++ '\x22' :: (w₀ ++ ',' :: (w₁ ++ '\x22' :: (name ++ '\x22' :: (w₂ ++ ':' ::
          (w₃ ++ '\x22' :: b)))))) ++ '\x22' :: (w₄ ++ '\x7d' :: w₅) := by
    simpa [tailOf] using h
  obtain ⟨hmessage, -⟩ := Json.eq_of_last (by decide) (by simp [hquote hw₄, hquote hw₅]) hend
  -- the one that opens it has no backslash in front of it
  have hbegin : (channel ++ '\x22' :: ',' :: ' ' :: '\x22' :: ("text".toList ++ ['\x22', ':'])) ++
      '\x22' :: replaceQuotes m = (raw ++ '\x22' :: (w₀ ++ ',' :: (w₁ ++ '\x22' :: (name ++ '\x22' ::
        (w₂ ++ ':' :: w₃))))) ++ '\x22' :: b := by
    simpa using hmessage
  obtain ⟨hkey, hm⟩ := Json.eq_of_guarded (guarded_replaceQuotes m) hb.guarded (by simp)
    (by simpa using hcolon hw₃ (raw ++ '\x22' :: (w₀ ++ ',' :: (w₁ ++ '\x22' :: (name ++ '\x22' ::
      w₂))))) hbegin
  -- the same for the name of the member
  have hopen : (channel ++ '\x22' :: ',' :: ' ' :: '\x22' :: "text".toList) ++ '\x22' :: [':'] =
      (raw ++ '\x22' :: (w₀ ++ ',' :: (w₁ ++ '\x22' :: name))) ++ '\x22' :: (w₂ ++ ':' :: w₃) := by
    simpa using hkey
  obtain ⟨hword, -⟩ := Json.eq_of_last (by decide) (by simp [hquote hw₂, hquote hw₃]) hopen
  have hclose : (channel ++ ['\x22', ',', ' ']) ++ '\x22' :: "text".toList =
      (raw ++ '\x22' :: (w₀ ++ ',' :: w₁)) ++ '\x22' :: name := by
    simpa using hword
  obtain ⟨hfirst, -⟩ := Json.eq_of_guarded (Json.guarded_of_not_mem (by decide)) hname.guarded
    (by simp) (by simpa using hcomma hw₁ (raw ++ '\x22' :: w₀)) hclose
  -- and the last quote before it closes the channel
  obtain ⟨hchannel, -⟩ := Json.eq_of_last (by decide) (by simp [hquote hw₀, hquote hw₁]) hfirst
  exact ⟨hchannel, hm⟩

/-- A text that is well formed ends with the message, behind the channel. -/
theorem bodies_of_wellFormed
    (h : WellFormed (messageText n channel.toList message.toList) message) :
    InString channel ∧ Json.Body (replaceQuotes message.toList) message.toList := by
  obtain ⟨members, hparse, hnodup, hnames, htext⟩ := h
  have hnames' : members.map Prod.fst ⊆ memberNames := by
    intro name hname
    obtain ⟨e, he, rfl⟩ := List.mem_map.mp hname
    exact hnames e he
  obtain ⟨fuel, heq⟩ := parse_messageText n channel.toList message.toList
  rw [hparse] at heq
  obtain ⟨⟨ms, rest⟩, hms, hend⟩ := Option.bind_eq_some_iff.mp heq.symm
  obtain ⟨⟨value, r⟩, hvalue, hrest⟩ := Option.bind_eq_some_iff.mp hms
  rw [Json.readValue_quote] at hvalue
  obtain ⟨⟨c, r'⟩, hstring, hpair⟩ := Option.map_eq_some_iff.mp hvalue
  cases hpair
  obtain ⟨raw, htail, hraw⟩ := Json.body_of_readString hstring
  split at hend
  · rename_i hspace
    cases hend
    have hlength := (List.subperm_of_subset hnodup hnames').length_le
    rcases Json.readRest_cases hrest with ⟨tail, rest', hcomma, hmembers, rfl⟩ | ⟨-, rfl⟩
    · obtain ⟨fuel', w₁, raw', w₂, sv, name, value, r', rfl, hw₁, hw₂, hname, hvalue', hrest'⟩ :=
        Json.member_of_readMembers hmembers
      rcases Json.readRest_cases hrest' with ⟨tail', rest'', -, hmore, rfl⟩ | ⟨hbrace, rfl⟩
      · have hpos := List.length_pos_iff.mpr (Json.readMembers_ne_nil hmore)
        simp only [memberNames, List.map_cons, List.length_cons, List.length_map,
          List.length_nil] at hlength
        omega
      · obtain rfl : value = .string message.toList := by
          simp at htext
          exact htext.2.symm
        obtain ⟨w₃, b, rfl, hw₃, hb⟩ := Json.string_of_readValue hvalue'
        obtain ⟨w₀, rfl, hw₀⟩ := Json.expect_eq_some hcomma
        obtain ⟨w₄, rfl, hw₄⟩ := Json.expect_eq_some hbrace
        obtain ⟨rfl, rfl⟩ := cut_tail htail hw₀ hw₁ hw₂ hw₃ hw₄ (Json.spaces_of_skipSpace hspace)
          hname hb
        exact ⟨⟨_, hraw⟩, hb⟩
    · simp at htext
  · cases hend

end Text

/-- A message arrives exactly if it has no backslash and no control character, and the channel can
stand in a string. -/
theorem delivers_iff (s : Rtm) (channel message : String) :
    Delivers s channel message ↔ InString channel ∧ Unescaped message := by
  unfold Delivers
  rw [sendMessage_written]
  constructor
  · rintro ⟨text, htext, hformed⟩
    obtain rfl := List.singleton_inj.mp (List.append_cancel_left htext)
    obtain ⟨hchannel, hm⟩ := bodies_of_wellFormed hformed
    exact ⟨hchannel, unescaped_of_body hm⟩
  · rintro ⟨⟨c, hc⟩, hm⟩
    exact ⟨_, rfl, wellFormed_of_body hc (body_replaceQuotes hm)⟩

/-- A message of one backslash: the quote that closes it is escaped. -/
theorem not_delivers_backslash :
    ¬ ∀ s channel message, (∀ c ∈ channel.toList, c.isAlphanum) → Delivers s channel message := by
  intro h
  have hid : ("C1".toList.all Char.isAlphanum) = true := by decide
  obtain ⟨text, htext, hformed⟩ := h {} "C1" "\\" (List.all_eq_true.mp hid)
  rw [sendMessage_written] at htext
  obtain rfl := List.singleton_inj.mp (List.append_cancel_left htext)
  have hm := unescaped_of_body (bodies_of_wellFormed hformed).2
  exact absurd rfl (hm '\\' (by decide)).1

end Spectrum.Slack
