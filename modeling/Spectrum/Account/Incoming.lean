import Spectrum.Account.Media
import Spectrum.Account.User

/-!
# Conversation messages of the backend

`NetworkPluginServer::handleConvMessagePayload` with its conversions. A part of the message is converted
and passed on before the next one, and an exception of a conversion leaves the function.
`Account.handleConvMessagePayload` is what it does when nothing fails.
-/

namespace Spectrum.Account.Media

open Lib

/-! ## What trimming keeps -/

section Trimming

variable {s t p a b : List Char}

/-- No end of `t` fits over `p`. -/
def Apart (t p : List Char) : Prop :=
  ∀ k < t.length, (t.drop k).take p.length ≠ p.take (t.length - k)

theorem apart_blanks (t : List Char) (ht : t ∈ blanks) :
    Apart (t.map Char.toUpper) ("<img".toList.map Char.toUpper) ∧
      Apart (t.reverse.map Char.toUpper) ("<img".toList.reverse.map Char.toUpper) := by
  unfold Apart
  revert t
  decide

/-- A prefix that does not fit over a part of a list ends before that part. -/
theorem length_le_of_prefix (h : t <+: a ++ p ++ b) (hapart : Apart t p) :
    t.length ≤ a.length := by
  by_contra hlt
  have ht : t = (a ++ p ++ b).take t.length := List.prefix_iff_eq_take.mp h
  refine hapart a.length (Nat.lt_of_not_le hlt) ?_
  have hdrop : t.drop a.length = (p ++ b).take (t.length - a.length) := by
    conv_lhs => rw [ht]
    rw [List.drop_take, List.append_assoc, List.drop_left]
  rw [hdrop, List.take_take, Nat.min_comm, ← List.take_take, List.take_left]

/-- A text in front of an image ends before the image. -/
theorem length_le_of_istartsWith (h : istartsWith (a ++ p ++ b) t = true)
    (hapart : Apart (t.map Char.toUpper) (p.map Char.toUpper)) : t.length ≤ a.length := by
  have hprefix := List.isPrefixOf_iff_prefix.mp h
  rw [List.map_append, List.map_append] at hprefix
  have hle := length_le_of_prefix hprefix hapart
  rwa [List.length_map, List.length_map] at hle

theorem infix_eraseStart (ht : t ∈ blanks) (h : "<img".toList <:+: s) :
    "<img".toList <:+: eraseStart s t := by
  obtain ⟨a, b, rfl⟩ := h
  unfold eraseStart
  split
  · rename_i hstart
    have hle := length_le_of_istartsWith hstart (apart_blanks t ht).1
    rw [List.append_assoc, List.drop_append_of_le_length hle, ← List.append_assoc]
    exact List.infix_append _ _ _
  · exact List.infix_append _ _ _

theorem infix_eraseEnd (ht : t ∈ blanks) (h : "<img".toList <:+: s) :
    "<img".toList <:+: eraseEnd s t := by
  obtain ⟨a, b, rfl⟩ := h
  unfold eraseEnd
  split
  · rename_i hend
    rw [iendsWith, List.reverse_append, List.reverse_append, ← List.append_assoc] at hend
    have hle := length_le_of_istartsWith hend (apart_blanks t ht).2
    rw [List.length_reverse, List.length_reverse] at hle
    have htake : (a ++ "<img".toList ++ b).length - t.length =
        (a ++ "<img".toList).length + (b.length - t.length) := by
      rw [List.length_append]
      omega
    rw [htake, List.take_length_add_append]
    exact List.infix_append _ _ _
  · exact List.infix_append _ _ _

theorem infix_whileMatch {erase : List Char → List Char → List Char}
    (herase : ∀ s, ∀ t ∈ blanks, "<img".toList <:+: s → "<img".toList <:+: erase s t)
    (h : "<img".toList <:+: s) : "<img".toList <:+: whileMatch erase s := by
  have hpass : ∀ (ts : List (List Char)) s, (∀ t ∈ ts, t ∈ blanks) → "<img".toList <:+: s →
      "<img".toList <:+: ts.foldl erase s := by
    intro ts
    induction ts with
    | nil => exact fun s _ h => h
    | cons t ts ih =>
      intro s hts h
      exact ih _ (fun u hu => hts u (List.mem_cons_of_mem t hu)) (herase s t (hts t List.mem_cons_self) h)
  induction s using whileMatch.induct erase with
  | case1 s hlt ih =>
    rw [whileMatch, if_pos hlt]
    exact ih (hpass blanks s (fun _ ht => ht) h)
  | case2 s hlt =>
    rw [whileMatch, if_neg hlt]
    exact h

theorem infix_xhtmlTrim (h : "<img".toList <:+: s) : "<img".toList <:+: xhtmlTrim s :=
  infix_whileMatch (fun _ _ ht => infix_eraseEnd ht) (infix_whileMatch (fun _ _ ht => infix_eraseStart ht) h)

end Trimming

/-- A message becomes at least one part. -/
theorem Progress.partsFrom_ne_nil {search : ImageSearch} {pos : List Char}
    (h : "<img".toList <:+: pos) (s : Progress) : partsFrom search pos s ≠ [] := by
  have himg : "<img".toList ≠ [] := by decide
  cases hsearch : search pos with
  | none =>
    have hpos : pos ≠ [] := fun hnil => himg (List.infix_nil.mp (hnil ▸ h))
    have htrim : xhtmlTrim pos ≠ [] := fun hnil => himg (List.infix_nil.mp (hnil ▸ infix_xhtmlTrim h))
    rw [partsFrom_none hsearch, if_neg hpos, post, if_pos (Or.inl htrim)]
    exact List.append_ne_nil_of_right_ne_nil _ (List.cons_ne_nil _ _)
  | some m =>
    obtain ⟨parts, hparts⟩ := partsFrom_append search m.rest (s.next .split m)
    rw [partsFrom_some hsearch, hparts]
    exact List.append_ne_nil_of_left_ne_nil (result_next_ne_nil m s) _

theorem wrapIncomingMedia_ne_nil {search : ImageSearch} {st : Settings} {msg : Draft}
    {parts : List Draft} (h : wrapIncomingMedia search st msg = .ok parts) : parts ≠ [] := by
  unfold wrapIncomingMedia at h
  split at h
  · cases h
    exact List.cons_ne_nil _ _
  · rename_i xhtml _
    split at h
    · rename_i himg
      split at h
      · cases h
      · cases h
        cases hmode : st.mode with
        | split => exact Progress.partsFrom_ne_nil himg _
        | wrapAll => exact List.append_ne_nil_of_right_ne_nil _ (List.cons_ne_nil _ _)
        | exclusive => exact List.append_ne_nil_of_right_ne_nil _ (List.cons_ne_nil _ _)
    · cases h
      exact List.cons_ne_nil _ _

/-- The body of the message is read exactly if its XHTML has an image. -/
theorem wrapIncomingMedia_isOk_iff (search : ImageSearch) (st : Settings) (msg : Draft) :
    (∃ parts, wrapIncomingMedia search st msg = .ok parts) ↔
      (msg.body = none → ∀ xhtml, msg.xhtml = some xhtml → ¬ "<img".toList <:+: xhtml.toList) := by
  unfold wrapIncomingMedia
  cases msg.xhtml with
  | none => exact ⟨fun _ _ _ h => absurd h.symm (Option.some_ne_none _), fun _ => ⟨_, rfl⟩⟩
  | some xhtml =>
    by_cases himg : "<img".toList <:+: xhtml.toList
    · simp only [if_pos himg]
      cases msg.body with
      | none =>
        constructor
        · rintro ⟨_, h⟩
          cases h
        · intro h
          exact absurd himg (h rfl xhtml rfl)
      | some body => exact ⟨fun _ h => absurd h (Option.some_ne_none _), fun _ => ⟨_, rfl⟩⟩
    · simp only [if_neg himg]
      refine ⟨fun _ _ xhtml' heq => ?_, fun _ => ⟨_, rfl⟩⟩
      cases heq
      exact himg

/-! ## The handler -/

/-- The conversation for a message, which is created if it is not there. A message of an occupant of an
unknown room is dropped. -/
def target (payload : ConversationMessage) (a : Account) : Option (String × Account) :=
  match a.convs.getConversation payload.buddyname with
  | none =>
    if payload.nickname ≠ "" then none
    else some (payload.buddyname, a.addConversation (Conversation.create a.env payload.buddyname false))
  | some (key, _) =>
    if payload.pm then
      match a.convs.getConversation (payload.buddyname ++ "/" ++ payload.nickname) with
      | some (key, _) => some (key, a)
      | none =>
        let c := privateChat a.env payload.buddyname payload.nickname
        some (c.legacyName, a.addConversation c)
    else some (key, a)

/-- The message before it is split. Only a message without a subject has a body. -/
def toDraft (env : Env) (payload : ConversationMessage) (subject : Bool) : Draft where
  body := if subject then none else some payload.message
  subject := if subject then payload.message else ""
  payloads :=
    (if env.enableXhtml = true ∧ payload.xhtml ≠ "" then [.xhtml payload.xhtml] else []) ++
      payload.attachment.map fun att => .oob att.1 att.2

/-- The body of the loop over the parts; `isIso` says which texts `from_iso_string` converts. -/
def convertPart (isIso : String → Bool) (payload : ConversationMessage) (part : Draft) :
    Except Failure Message :=
  let m := part.toMessage
  let m := if payload.headline then m.setType .headline else m
  let m := m.addPayload (.chatState .active)
  if payload.timestamp = "" then .ok m
  else if isIso payload.timestamp then .ok (m.addPayload (.delay (some payload.timestamp)))
  else .error .malformedTimestamp

def forwardParts (isIso : String → Bool) (payload : ConversationMessage) (key : String)
    (parts : List Draft) (a : Account) : Except Failure Account :=
  parts.foldlM (fun a part => do
    let m ← convertPart isIso payload part
    return a.call key fun x c => c.handleMessage x m payload.nickname payload.carbon) a

/-- `handleConvMessagePayload` for a payload that has been parsed, with the account of its user. -/
def handleConvMessagePayload (search : ImageSearch) (st : Settings) (isIso : String → Bool)
    (payload : ConversationMessage) (subject : Bool) (user : Option Account) :
    Except Failure (Option Account) :=
  match user with
  | none => .ok none
  | some a =>
    match target payload a with
    | none => .ok (some a)
    | some (key, b) => do
      let parts ← wrapIncomingMedia search st (toDraft b.env payload subject)
      let b ← forwardParts isIso payload key parts b
      return some b

section Handler

variable {search : ImageSearch} {st : Settings} {isIso : String → Bool} {payload : ConversationMessage}
  {subject : Bool}

/-- What a part becomes when its timestamp is converted. -/
def converted (payload : ConversationMessage) (part : Draft) : Message :=
  let m := part.toMessage
  let m := if payload.headline then m.setType .headline else m
  let m := m.addPayload (.chatState .active)
  if payload.timestamp = "" then m else m.addPayload (.delay (some payload.timestamp))

/-- An absent timestamp, or one that `from_iso_string` converts. -/
def TimestampOk (isIso : String → Bool) (payload : ConversationMessage) : Prop :=
  payload.timestamp = "" ∨ isIso payload.timestamp = true

theorem convertPart_of_ok (h : TimestampOk isIso payload) (part : Draft) :
    convertPart isIso payload part = .ok (converted payload part) := by
  unfold convertPart converted
  by_cases htimestamp : payload.timestamp = ""
  · simp only [if_pos htimestamp]
  · simp only [if_neg htimestamp, if_pos (h.resolve_left htimestamp)]

theorem convertPart_of_not_ok (h : ¬ TimestampOk isIso payload) (part : Draft) :
    convertPart isIso payload part = .error .malformedTimestamp := by
  obtain ⟨htimestamp, hiso⟩ := not_or.mp h
  unfold convertPart
  simp only [if_neg htimestamp, if_neg hiso]

theorem forwardParts_of_ok (h : TimestampOk isIso payload) (key : String) (parts : List Draft)
    (a : Account) : forwardParts isIso payload key parts a =
      .ok (a.forward key (parts.map (converted payload)) payload.nickname payload.carbon) := by
  induction parts generalizing a with
  | nil => rfl
  | cons part parts ih =>
    rw [forwardParts, List.foldlM_cons, convertPart_of_ok h]
    exact ih _

theorem forwardParts_of_not_ok (h : ¬ TimestampOk isIso payload) (key : String) {parts : List Draft}
    (hne : parts ≠ []) (a : Account) :
    forwardParts isIso payload key parts a = .error .malformedTimestamp := by
  cases parts with
  | nil => exact absurd rfl hne
  | cons part parts =>
    rw [forwardParts, List.foldlM_cons, convertPart_of_not_ok h]
    rfl

theorem isOk_forwardParts_iff (key : String) {parts : List Draft} (hne : parts ≠ []) (a : Account) :
    (∃ b, forwardParts isIso payload key parts a = .ok b) ↔ TimestampOk isIso payload := by
  constructor
  · rintro ⟨b, hb⟩
    by_contra h
    rw [forwardParts_of_not_ok h key hne] at hb
    cases hb
  · intro h
    exact ⟨_, forwardParts_of_ok h key parts a⟩

theorem target_eq_none_iff {a : Account} : target payload a = none ↔
    a.convs.getConversation payload.buddyname = none ∧ payload.nickname ≠ "" := by
  unfold target
  split
  · rename_i hnone
    by_cases hnickname : payload.nickname = ""
    · simp [hnickname]
    · simp [hnickname, hnone]
  · rename_i key c hsome
    rw [hsome]
    refine ⟨fun h => ?_, fun h => absurd h.1 (Option.some_ne_none _)⟩
    split at h
    · split at h
      · cases h
      · cases h
    · cases h

theorem env_of_target {a b : Account} {key : String} (h : target payload a = some (key, b)) :
    b.env = a.env := by
  unfold target at h
  split at h
  · split at h
    · cases h
    · cases h
      rfl
  · split at h
    · split at h
      · cases h
        rfl
      · cases h
        rfl
    · cases h
      rfl

theorem xhtml_toDraft {env : Env} {xhtml : String} :
    (toDraft env payload subject).xhtml = some xhtml ↔
      env.enableXhtml = true ∧ payload.xhtml ≠ "" ∧ payload.xhtml = xhtml := by
  have hattachment : (payload.attachment.map fun att => Payload.oob att.1 att.2).findSome?
      Draft.xhtmlOf = none := by
    refine List.findSome?_eq_none_iff.mpr fun p hp => ?_
    obtain ⟨att, -, rfl⟩ := List.mem_map.mp hp
    rfl
  unfold Draft.xhtml toDraft
  rw [List.findSome?_append, hattachment, Option.or_none]
  split
  · rename_i h
    exact ⟨fun heq => ⟨h.1, h.2, Option.some.inj heq⟩, fun heq => congrArg some heq.2.2⟩
  · rename_i h
    exact ⟨fun heq => absurd heq.symm (Option.some_ne_none _), fun heq => absurd ⟨heq.1, heq.2.1⟩ h⟩

/-- The body is there if a message has no subject, and is needed for an image only. -/
theorem isOk_wrap_toDraft_iff (env : Env) :
    (∃ parts, wrapIncomingMedia search st (toDraft env payload subject) = .ok parts) ↔
      ¬ (subject = true ∧ env.enableXhtml = true ∧ "<img".toList <:+: payload.xhtml.toList) := by
  rw [wrapIncomingMedia_isOk_iff]
  have hbody : (toDraft env payload subject).body = none ↔ subject = true := by
    cases subject <;> simp [toDraft]
  rw [hbody]
  constructor
  · rintro h ⟨hsubject, hxhtml, himg⟩
    refine h hsubject payload.xhtml (xhtml_toDraft.mpr ⟨hxhtml, ?_, rfl⟩) himg
    rintro hempty
    rw [hempty] at himg
    exact absurd (List.infix_nil.mp himg) (by decide)
  · rintro h hsubject xhtml hxhtml himg
    obtain ⟨henable, -, rfl⟩ := xhtml_toDraft.mp hxhtml
    exact h ⟨hsubject, henable, himg⟩

theorem handle_of_dropped {a : Account} (h : target payload a = none) :
    handleConvMessagePayload search st isIso payload subject (some a) = .ok (some a) := by
  simp only [handleConvMessagePayload, h]

theorem handle_of_target {a b : Account} {key : String} (h : target payload a = some (key, b)) :
    handleConvMessagePayload search st isIso payload subject (some a) =
      (wrapIncomingMedia search st (toDraft b.env payload subject)).bind fun parts =>
        (forwardParts isIso payload key parts b).map some := by
  simp only [handleConvMessagePayload, h]
  rfl

theorem isOk_handle_of_target {a b : Account} {key : String}
    (h : target payload a = some (key, b)) :
    (∃ user', handleConvMessagePayload search st isIso payload subject (some a) = .ok user') ↔
      (∃ parts, wrapIncomingMedia search st (toDraft b.env payload subject) = .ok parts) ∧
        TimestampOk isIso payload := by
  rw [handle_of_target h]
  cases hwrap : wrapIncomingMedia search st (toDraft b.env payload subject) with
  | error failure =>
    constructor
    · rintro ⟨user', huser⟩
      cases huser
    · rintro ⟨⟨parts, hparts⟩, -⟩
      cases hparts
  | ok parts =>
    have hforward := @isOk_forwardParts_iff isIso payload key parts (wrapIncomingMedia_ne_nil hwrap) b
    rw [← hforward]
    constructor
    · rintro ⟨user', huser⟩
      refine ⟨⟨parts, rfl⟩, ?_⟩
      cases hc : forwardParts isIso payload key parts b with
      | error failure =>
        rw [Except.bind, hc] at huser
        cases huser
      | ok c => exact ⟨c, rfl⟩
    · rintro ⟨-, c, hc⟩
      exact ⟨some c, congrArg (Except.map some) hc⟩

end Handler

/-- A payload is converted exactly if it is dropped, or no image comes with a subject and its timestamp
is absent or well formed. -/
theorem handleConvMessagePayload_isOk_iff (search : ImageSearch) (st : Settings)
    (isIso : String → Bool) (payload : ConversationMessage) (subject : Bool) (user : Option Account) :
    (∃ user', handleConvMessagePayload search st isIso payload subject user = .ok user') ↔
      ∀ a, user = some a →
        (a.convs.getConversation payload.buddyname = none ∧ payload.nickname ≠ "") ∨
          (¬ (subject = true ∧ a.env.enableXhtml = true ∧
              "<img".toList <:+: payload.xhtml.toList) ∧
            (payload.timestamp = "" ∨ isIso payload.timestamp = true)) := by
  cases user with
  | none => exact ⟨fun _ _ h => absurd h.symm (Option.some_ne_none _), fun _ => ⟨none, rfl⟩⟩
  | some a =>
    simp only [Option.some.injEq, forall_eq']
    rw [← target_eq_none_iff]
    cases htarget : target payload a with
    | none => exact ⟨fun _ => Or.inl rfl, fun _ => ⟨some a, handle_of_dropped htarget⟩⟩
    | some kb =>
      obtain ⟨key, b⟩ := kb
      rw [isOk_handle_of_target htarget, isOk_wrap_toDraft_iff, env_of_target htarget]
      exact ⟨Or.inr, fun h => h.resolve_left (Option.some_ne_none _)⟩

namespace Sample

def account : Account :=
  start
    { env := { user := ⟨"bob", "example.org", ""⟩, enableXhtml := true }, oracle := fun _ => []
      sessions := [], getBuddy := fun _ => none, cacheMessages := false }
    fun _ => false

/-- A subject with an image. -/
def topic : ConversationMessage where
  buddyname := "carol"
  message := "topic"
  xhtml := "<img src='u'>"

def late : ConversationMessage where
  buddyname := "carol"
  message := "hi"
  timestamp := "yesterday"

end Sample

open Media.Sample in
/-- The body of a subject is read, and the exception of a timestamp is not caught. -/
theorem not_isOk_topic :
    handleConvMessagePayload search {} (· = "20261231T235959") topic true (some account) =
        .error .absentBody ∧
      handleConvMessagePayload search {} (· = "20261231T235959") late false (some account) =
        .error .malformedTimestamp := by
  constructor
  · rfl
  · rfl

/-! ## The account -/

/-- A message with the body it was given. -/
def ofMessage (m : Message) : Draft where
  type := m.head.type
  body := some m.head.body
  subject := m.head.subject
  payloads := m.head.payloads

/-- `wrapIncomingMedia` as the account knows it. -/
def wrapParts (search : ImageSearch) (st : Settings) (m : Message) : List Message :=
  match wrapIncomingMedia search st (ofMessage m) with
  | .ok parts => parts.map Draft.toMessage
  | .error _ => []

theorem wrapParts_eq {search : ImageSearch} {st : Settings} {env : Env} {payload : ConversationMessage}
    {subject : Bool} {parts : List Draft}
    (h : wrapIncomingMedia search st (toDraft env payload subject) = .ok parts) :
    wrapParts search st (toMessage env payload subject) = parts.map Draft.toMessage := by
  unfold wrapParts
  cases subject with
  | false =>
    have hsame : ofMessage (toMessage env payload false) = toDraft env payload false := rfl
    rw [hsame, h]
  | true =>
    have hxhtml : (ofMessage (toMessage env payload true)).xhtml = (toDraft env payload true).xhtml := rfl
    unfold wrapIncomingMedia at h ⊢
    rw [hxhtml]
    cases hdraft : (toDraft env payload true).xhtml with
    | none =>
      rw [hdraft] at h
      cases h
      rfl
    | some xhtml =>
      rw [hdraft] at h
      simp only at h ⊢
      split at h
      · cases h
      · rename_i himg
        cases h
        rw [if_neg himg]
        rfl

theorem handle_account (payload : ConversationMessage) (subject : Bool) (a : Account) :
    a.handleConvMessagePayload payload subject =
      match target payload a with
      | none => a
      | some (key, b) =>
        forward key (messageParts b.env payload subject) payload.nickname payload.carbon b := by
  unfold Account.handleConvMessagePayload target
  cases a.convs.getConversation payload.buddyname with
  | none =>
    simp only
    split
    · rfl
    · rfl
  | some kc =>
    simp only
    split
    · cases a.convs.getConversation (payload.buddyname ++ "/" ++ payload.nickname) with
      | none => rfl
      | some kd => rfl
    · rfl

/-- A payload that is converted does to the account what the model of the account says. -/
theorem handleConvMessagePayload_eq {search : ImageSearch} {st : Settings} {isIso : String → Bool}
    {payload : ConversationMessage} {subject : Bool} {a : Account} {user' : Option Account}
    (h : handleConvMessagePayload search st isIso payload subject (some a) = .ok user')
    (henv : a.env.wrapIncomingMedia = wrapParts search st) :
    user' = some (a.handleConvMessagePayload payload subject) := by
  rw [handle_account]
  cases htarget : target payload a with
  | none =>
    rw [handle_of_dropped htarget] at h
    exact (Except.ok.inj h).symm
  | some kb =>
    obtain ⟨key, b⟩ := kb
    obtain ⟨⟨parts, hparts⟩, htimestamp⟩ := (isOk_handle_of_target htarget).mp ⟨user', h⟩
    rw [handle_of_target htarget, hparts, Except.bind, forwardParts_of_ok htimestamp] at h
    have hmessages : messageParts b.env payload subject = parts.map (converted payload) := by
      rw [messageParts, env_of_target htarget, henv, wrapParts_eq (env_of_target htarget ▸ hparts),
        List.map_map]
      rfl
    simp only [hmessages]
    exact (Except.ok.inj h).symm

end Spectrum.Account.Media
