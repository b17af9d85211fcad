import Spectrum.Account.Nodes

/-!
# The JID of a legacy contact

A contact has a legacy name, and the transport writes to the user under a JID it makes of that
name. Three places do so: a buddy encodes his name by his own flag, a conversation asks the
roster first and falls back to `service.jid_escaping`, and an authorization request always
follows `service.jid_escaping`.

* `oneJid_of_alike`: the three agree if the flag of the buddy with that name, if there is one, is the
  setting, or the name has nothing to escape; and for names of which nodeprep changes only the case
  they do not agree otherwise.
-/

namespace Spectrum.Account

/-- `service.jid_escaping`, or the flag of a buddy: escape the name, or write its last `@`
as `%`. -/
def encodeName (env : Env) (escaping : Bool) (name : String) : String :=
  if escaping then env.escapedNode name else replaceLast '@' '%' name

/-- `Transport::LocalBuddy`. The flag is `BUDDY_JID_ESCAPING`. -/
structure LocalBuddy where
  name : String
  jidEscaping : Bool
  deriving DecidableEq, Repr

namespace LocalBuddy

/-- `getSafeName` while `m_jid` is not set. -/
def getSafeName (env : Env) (b : LocalBuddy) : String := encodeName env b.jidEscaping b.name

/-- `getJID`, as `generateJID` makes it; the resource is `JID_DEFAULT_RESOURCE`. -/
def getJid (env : Env) (b : LocalBuddy) : Jid :=
  env.prep.fullJid (b.getSafeName env) env.jid.toString "bot"

/-- The stanza of `generatePresenceStanzas` for the status of the buddy. -/
def presence (env : Env) (show_ : StatusShow) (status : String) (b : LocalBuddy) : Presence where
  fromJid := b.getJid env
  toJid := env.user.toBare
  type := if show_ = .none then .unavailable else .available
  showPayload := some show_
  status := status

/-- `sendBuddySubscribePresence`. -/
def subscribePresence (env : Env) (b : LocalBuddy) : Presence where
  fromJid := (b.getJid env).toBare
  toJid := env.user
  type := .subscribe

/-- The two stanzas of `sendBuddyUnsubscribePresence`. -/
def unsubscribePresences (env : Env) (b : LocalBuddy) : List Presence :=
  [{ fromJid := b.getJid env, toJid := env.user, type := .unsubscribe },
   { fromJid := b.getJid env, toJid := env.user, type := .unsubscribed }]

/-- The JID of the item of `generateRosterPayload`. -/
def rosterItem (env : Env) (b : LocalBuddy) : Jid := (b.getJid env).toBare

end LocalBuddy

/-- `RosterManager::m_buddies`, by the lower-case name, with `boost::locale::to_lower`. -/
structure Roster where
  toLower : String → String
  buddies : String → Option LocalBuddy

namespace Roster

def getBuddy (roster : Roster) (name : String) : Option LocalBuddy :=
  roster.buddies (roster.toLower name)

/-- What a conversation sees of the roster. -/
def lookup (env : Env) (roster : Roster) (name : String) : Option Buddy :=
  (roster.getBuddy name).map fun b => ⟨b.name, b.getJid env⟩

end Roster

/-- The stanza of `handleAuthorizationPayload`. -/
def authorization (env : Env) (buddyname : String) : Presence where
  fromJid := env.prep.bareJid (encodeName env env.jidEscaping buddyname) env.jid.toString
  toJid := env.user
  type := .subscribe

/-- The senders of the stanzas that the transport sends to the user on behalf of `name`. -/
inductive OnBehalf (env : Env) (roster : Roster) (name : String) : Jid → Prop
  | presence {b : LocalBuddy} (hb : roster.getBuddy name = some b) (show_ : StatusShow)
      (status : String) : OnBehalf env roster name (b.presence env show_ status).fromJid
  | subscribe {b : LocalBuddy} (hb : roster.getBuddy name = some b) :
      OnBehalf env roster name (b.subscribePresence env).fromJid
  | unsubscribe {b : LocalBuddy} (hb : roster.getBuddy name = some b) {p : Presence}
      (hp : p ∈ b.unsubscribePresences env) : OnBehalf env roster name p.fromJid
  | rosterItem {b : LocalBuddy} (hb : roster.getBuddy name = some b) :
      OnBehalf env roster name (b.rosterItem env)
  | message {x : Context} (hx : x.env = env ∧ x.getBuddy = roster.lookup env) {c : Conversation}
      (hc : c.legacyName = name ∧ c.room = "" ∧ c.muc = false) (m : Message) :
      OnBehalf env roster name (c.address x "" m).head.fromJid
  | authorization : OnBehalf env roster name (authorization env name).fromJid

/-- All stanzas on behalf of a name come from one bare JID. -/
def OneJid (env : Env) (roster : Roster) (name : String) : Prop :=
  ∀ j j', OnBehalf env roster name j → OnBehalf env roster name j' → j.toBare = j'.toBare

/-- The name has none of the characters that escaping touches. -/
def PlainName (env : Env) (name : String) : Prop := env.escapedNode name = name ∧ '@' ∉ name.toList

/-- Two spellings that the roster does not tell apart give one node. -/
def SameNode (env : Env) (name name' : String) : Prop :=
  env.prep.node (encodeName env env.jidEscaping name) =
    env.prep.node (encodeName env env.jidEscaping name')

/-- The condition. The buddy with the name, if there is one, has the setting as his flag, or his name
is plain; and where he is spelled in another way, both spellings have one node. -/
def Alike (env : Env) (roster : Roster) (name : String) : Prop :=
  ∀ b, roster.getBuddy name = some b →
    (b.jidEscaping = env.jidEscaping ∨ PlainName env b.name) ∧ (b.name ≠ name → SameNode env b.name name)

/-- `getEscapedNode` makes the text longer where it escapes something, and it escapes every `@`. -/
structure Escapes (env : Env) : Prop where
  longer : ∀ s, env.escapedNode s = s ∨ s.length < (env.escapedNode s).length
  sign : ∀ s, '@' ∈ s.toList → env.escapedNode s ≠ s

/-- Nodeprep accepts the escaped name and changes only its case; the name with `%` for `@` is treated
in the same way or refused. -/
structure CaseOnly (env : Env) (name : String) : Prop where
  escaped : (env.prep.node (env.escapedNode name)).length = (env.escapedNode name).length
  replaced : (env.prep.node (replaceLast '@' '%' name)).length ≤ name.length

/-- Nodeprep and the roster tell only the case of the spellings of the name apart. -/
def Ordinary (env : Env) (roster : Roster) (name : String) : Prop :=
  CaseOnly env name ∧ ∀ b, roster.getBuddy name = some b →
    CaseOnly env b.name ∧ b.name.length = name.length ∧ (PlainName env name → PlainName env b.name)

section Senders

variable {env : Env} {roster : Roster} {name : String}

/-- The JID that the configuration gives to a name. -/
def configured (env : Env) (name : String) : Jid :=
  env.prep.bareJid (encodeName env env.jidEscaping name) env.jid.toString

theorem chatSender_of_buddy {x : Context} {c : Conversation} {b : LocalBuddy}
    (hx : x.env = env ∧ x.getBuddy = roster.lookup env)
    (hc : c.legacyName = name ∧ c.room = "" ∧ c.muc = false)
    (hb : roster.getBuddy name = some b) : c.chatSender x "" = b.getJid env := by
  obtain ⟨rfl, hlookup⟩ := hx
  obtain ⟨rfl, hroom, -⟩ := hc
  simp [Conversation.chatSender, hroom, hlookup, Roster.lookup, hb]

theorem chatSender_of_stranger {x : Context} {c : Conversation} (hjid : env.jid.resource = "")
    (hx : x.env = env ∧ x.getBuddy = roster.lookup env)
    (hc : c.legacyName = name ∧ c.room = "" ∧ c.muc = false)
    (hb : roster.getBuddy name = none) : (c.chatSender x "").toBare = configured env name := by
  obtain ⟨rfl, hlookup⟩ := hx
  obtain ⟨rfl, hroom, -⟩ := hc
  have hbare : x.env.jid.toBare = x.env.jid := by
    rw [Jid.toBare, ← hjid]
  have hsender : c.chatSender x "" =
      x.env.contact (encodeName x.env x.env.jidEscaping c.legacyName) "bot" := by
    simp [Conversation.chatSender, hroom, hlookup, Roster.lookup, hb, encodeName]
  rw [hsender, Env.contact, hbare]
  rfl

theorem address_chat {x : Context} {c : Conversation} (hc : c.muc = false) (m : Message) :
    (c.address x "" m).head.fromJid = c.chatSender x "" := by
  have htype : (m.setType (c.messageType x.env m.head.type)).head.type ≠ .groupchat := by
    simp only [Message.setType, Message.head_mapHead, ne_eq, messageType_eq_groupchat_iff, hc]
    exact Bool.false_ne_true
  unfold Conversation.address
  dsimp only
  rw [if_neg htype]
  simp [Message.setFrom]

theorem toBare_getJid (b : LocalBuddy) :
    (b.getJid env).toBare = env.prep.bareJid (b.getSafeName env) env.jid.toString := rfl

/-- Every sender is the buddy with the name or the one the configuration names. -/
theorem OnBehalf.cases_buddy (hjid : env.jid.resource = "") {j : Jid}
    (h : OnBehalf env roster name j) :
    (∃ b, roster.getBuddy name = some b ∧ j.toBare = (b.getJid env).toBare) ∨
      j.toBare = configured env name := by
  cases h with
  | presence hb => exact .inl ⟨_, hb, rfl⟩
  | subscribe hb => exact .inl ⟨_, hb, rfl⟩
  | @unsubscribe b hb p hp =>
    refine .inl ⟨b, hb, ?_⟩
    simp only [LocalBuddy.unsubscribePresences, List.mem_cons, List.not_mem_nil, or_false] at hp
    rcases hp with rfl | rfl <;> rfl
  | rosterItem hb => exact .inl ⟨_, hb, rfl⟩
  | message hx hc m =>
    rw [address_chat hc.2.2 m]
    cases hb : roster.getBuddy name with
    | some b => exact .inl ⟨b, rfl, by rw [chatSender_of_buddy hx hc hb]⟩
    | none => exact .inr (chatSender_of_stranger hjid hx hc hb)
  | authorization => exact .inr rfl

theorem PlainName.encodeName (h : PlainName env name) (escaping : Bool) :
    encodeName env escaping name = name := by
  unfold Account.encodeName
  split
  · exact h.1
  · exact replaceLast_of_not_mem h.2

/-- The node of the buddy is the one that the configuration gives to the name. -/
theorem Alike.node_eq (h : Alike env roster name) {b : LocalBuddy} (hb : roster.getBuddy name = some b) :
    env.prep.node (b.getSafeName env) = env.prep.node (encodeName env env.jidEscaping name) := by
  obtain ⟨hflag, hspelling⟩ := h b hb
  have hown : b.getSafeName env = encodeName env env.jidEscaping b.name := by
    rw [LocalBuddy.getSafeName]
    rcases hflag with hflag | hplain
    · rw [hflag]
    · rw [hplain.encodeName, hplain.encodeName]
  rw [hown]
  by_cases hname : b.name = name
  · rw [hname]
  · exact hspelling hname

theorem oneJid_of_node_eq (hjid : env.jid.resource = "")
    (h : ∀ b, roster.getBuddy name = some b →
      env.prep.node (b.getSafeName env) = env.prep.node (encodeName env env.jidEscaping name)) :
    OneJid env roster name := by
  have hconfigured : ∀ j, OnBehalf env roster name j → j.toBare = configured env name := by
    intro j hj
    rcases hj.cases_buddy hjid with ⟨b, hb, heq⟩ | heq
    · rw [heq, toBare_getJid]
      simp only [configured, StringPrep.bareJid, h b hb]
    · exact heq
  intro j j' hj hj'
  rw [hconfigured j hj, hconfigured j' hj']

theorem OneJid.node_eq (h : OneJid env roster name) {b : LocalBuddy}
    (hb : roster.getBuddy name = some b) :
    env.prep.node (b.getSafeName env) = env.prep.node (encodeName env env.jidEscaping name) :=
  congrArg Jid.node (h _ _ (OnBehalf.rosterItem hb) OnBehalf.authorization)

/-- A name that has something to escape does not have the length of its other encoding. -/
theorem plain_of_node_eq (hesc : Escapes env) {escaped replaced : String}
    (hescaped : CaseOnly env escaped) (hreplaced : CaseOnly env replaced)
    (hlength : escaped.length = replaced.length)
    (h : env.prep.node (env.escapedNode escaped) = env.prep.node (replaceLast '@' '%' replaced)) :
    PlainName env escaped := by
  have hsame : env.escapedNode escaped = escaped := by
    rcases hesc.longer escaped with heq | hlt
    · exact heq
    · have heq := hescaped.escaped
      have hle := hreplaced.replaced
      rw [h] at heq
      omega
  exact ⟨hsame, fun hsign => hesc.sign escaped hsign hsame⟩

theorem alike_of_oneJid (hesc : Escapes env) (hordinary : Ordinary env roster name)
    (h : OneJid env roster name) : Alike env roster name := by
  intro b hb
  have hnode := h.node_eq hb
  obtain ⟨hname, hbuddy⟩ := hordinary
  obtain ⟨hown, hlength, hplain⟩ := hbuddy b hb
  have hflag : b.jidEscaping = env.jidEscaping ∨ PlainName env b.name := by
    rw [LocalBuddy.getSafeName] at hnode
    cases hb' : b.jidEscaping <;> cases he : env.jidEscaping <;> rw [hb', he] at hnode
    · exact Or.inl rfl
    · exact Or.inr (hplain (plain_of_node_eq hesc hname hown hlength.symm hnode.symm))
    · exact Or.inr (plain_of_node_eq hesc hown hname hlength hnode)
    · exact Or.inl rfl
  refine ⟨hflag, fun _ => ?_⟩
  rw [SameNode, ← hnode, LocalBuddy.getSafeName]
  rcases hflag with hflag | hplain
  · rw [hflag]
  · rw [hplain.encodeName, hplain.encodeName]

/-- The transport uses one JID for a contact if the buddy with his name, if there is one, is encoded
alike; and for ordinary names only then. -/
theorem oneJid_of_alike (hjid : env.jid.resource = "") :
    (Alike env roster name → OneJid env roster name) ∧
      (Escapes env → Ordinary env roster name → (OneJid env roster name ↔ Alike env roster name)) := by
  have hsound : Alike env roster name → OneJid env roster name :=
    fun h => oneJid_of_node_eq hjid fun b hb => h.node_eq hb
  exact ⟨hsound, fun hesc hordinary => ⟨alike_of_oneJid hesc hordinary, hsound⟩⟩

end Senders

namespace Sample

/-- XEP-0106. -/
def namesEnv : Env where
  user := ⟨"alice", "example.org", ""⟩
  escapedNode := fun name => String.ofList (Lib.Escape.escape name.toList)

/-- One buddy, added with or without the flag. -/
def rosterOf (jidEscaping : Bool) : Roster where
  toLower := id
  buddies := fun name =>
    if name = "bob@example.com" then some { name := name, jidEscaping := jidEscaping } else none

theorem escapes_namesEnv : Escapes namesEnv where
  longer s := by
    rcases Lib.Escape.escape_longer s.toList with heq | hlt
    · exact Or.inl ((congrArg String.ofList heq).trans String.ofList_toList)
    · refine Or.inr ?_
      change s.length < (String.ofList _).length
      rwa [← String.length_toList, ← String.length_toList, String.toList_ofList]
  sign s hs heq := by
    have hescaped : Lib.Escape.escape s.toList = s.toList := by
      have := congrArg String.toList heq
      rwa [namesEnv, String.toList_ofList] at this
    rw [← hescaped] at hs
    exact Lib.Escape.not_mem_escape (by decide) (by decide) _ hs

theorem ordinary_bob (jidEscaping : Bool) :
    Ordinary namesEnv (rosterOf jidEscaping) "bob@example.com" := by
  have hcase : CaseOnly namesEnv "bob@example.com" := ⟨rfl, by decide +kernel⟩
  refine ⟨hcase, fun b hb => ?_⟩
  cases hb
  exact ⟨hcase, rfl, id⟩

end Sample

/-- The flag of the buddy decides. -/
theorem oneJid_of_alike_bob : OneJid Sample.namesEnv (Sample.rosterOf true) "bob@example.com" ∧
    ¬ OneJid Sample.namesEnv (Sample.rosterOf false) "bob@example.com" := by
  constructor
  · refine (oneJid_of_alike rfl).1 fun b hb => ?_
    cases hb
    exact ⟨Or.inl rfl, fun hne => absurd rfl hne⟩
  · rw [(oneJid_of_alike rfl).2 Sample.escapes_namesEnv (Sample.ordinary_bob false)]
    intro h
    rcases (h _ rfl).1 with hflag | hplain
    · cases hflag
    · exact hplain.2 (by decide)

/-- A buddy without the flag and an authorization request with `service.jid_escaping`. -/
theorem not_oneJid_of_flag :
    ¬ ∀ env roster name, env.jid.resource = "" → OneJid env roster name := by
  intro h
  have heq := h Sample.namesEnv (Sample.rosterOf false) "bob@example.com" rfl _ _
    (OnBehalf.rosterItem rfl) OnBehalf.authorization
  exact absurd heq (by decide)

end Spectrum.Account
