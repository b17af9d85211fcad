import Mathlib.Data.List.TakeWhile
import Spectrum.Account.Nodes
import Spectrum.Server.Names

/-!
# Names and JIDs, back and forth

A buddy encodes his name by his flag, and `JIDToLegacyName` guesses the encoding from the node:
a node with an escape sequence is decoded, in any other node the last `%` becomes `@`.

* From a name to a JID and back, the guess is right for the `Reversible` buddies, and only for
  them (`roundTrips_iff`).
* From a JID to a name and back, the flag of the new buddy is guessed from the same node, and
  the two guesses agree (`safeName_buddyOfJid`).
-/

namespace Spectrum.Account

/-! ## The functions -/

/-- `Buddy::JIDToLegacyName`, with the roster of the user if there is one. -/
def jidToLegacyName (cfg : Config) (user : Option Roster) (j : Jid) : String :=
  let name := legacyName cfg j
  match user with
  | none => name
  | some roster =>
    match roster.getBuddy name with
    | some b => b.name
    | none => name

/-- `Buddy::buddyFlagsFromJID`. -/
def buddyFlagsFromJid (cfg : Config) (j : Jid) : Bool :=
  decide (cfg.unescapedNode j.node ≠ j.node)

/-- The buddy that `handleSubscription` and `RosterResponder` create for a JID. -/
def buddyOfJid (cfg : Config) (user : Option Roster) (j : Jid) : LocalBuddy where
  name := jidToLegacyName cfg user j
  jidEscaping := buddyFlagsFromJid cfg j

/-- `getSafeName` of a buddy that has made his JID. -/
def LocalBuddy.safeName (env : Env) (b : LocalBuddy) : String :=
  if (b.getJid env).isValid then (b.getJid env).node else b.getSafeName env

/-! ## Case folding -/

def foldText (fold : Char → Char) (s : String) : String := String.ofList (s.toList.map fold)

/-- What stands behind the last `a`, in reverse order; the whole text if there is no `a`. -/
def afterLast (a : Char) (s : String) : List Char := s.toList.reverse.takeWhile fun c => c ≠ a

section Fold

variable {fold : Char → Char} {a b : Char}

theorem foldText_ofList_reverse (l : List Char) :
    foldText fold (String.ofList l.reverse) = String.ofList (l.map fold).reverse := by
  simp [foldText]

theorem length_foldText (s : String) : (foldText fold s).length = s.length := by
  simp [foldText, ← String.length_toList]

theorem foldText_foldText (h : ∀ c, fold (fold c) = fold c) (s : String) :
    foldText fold (foldText fold s) = foldText fold s := by
  have hfold : fold ∘ fold = fold := funext h
  simp [foldText, hfold]

theorem mem_foldText (h : ∀ c, fold c = a ↔ c = a) {s : String} :
    a ∈ (foldText fold s).toList ↔ a ∈ s.toList := by
  simp [foldText, h]

theorem foldText_replaceLast (ha : ∀ c, fold c = a ↔ c = a) (hb : fold b = b) (s : String) :
    foldText fold (replaceLast a b s) = replaceLast a b (foldText fold s) := by
  by_cases hs : a ∈ s.toList
  · obtain ⟨after, before, hno, rfl⟩ := exists_last hs
    have hno' : a ∉ after.map fold := by
      simpa [ha] using hno
    rw [replaceLast_last hno, foldText_ofList_reverse, foldText_ofList_reverse]
    simp only [List.map_append, List.map_cons, (ha a).mpr rfl, hb]
    rw [replaceLast_last hno']
  · rw [replaceLast_of_not_mem hs, replaceLast_of_not_mem (mt (mem_foldText ha).mp hs)]

theorem foldText_replaceLast_ne (hab : fold a ≠ fold b) {s : String} (hs : a ∈ s.toList) :
    foldText fold (replaceLast a b s) ≠ foldText fold s := by
  obtain ⟨after, before, hno, rfl⟩ := exists_last hs
  rw [replaceLast_last hno, foldText_ofList_reverse, foldText_ofList_reverse]
  intro heq
  simp only [String.ofList_inj, List.reverse_inj, List.map_append, List.map_cons,
    List.append_cancel_left_eq, List.cons.injEq, and_true] at heq
  exact hab heq.symm

theorem afterLast_last {after : List Char} (hno : a ∉ after) (before : List Char) :
    afterLast a (String.ofList (after ++ a :: before).reverse) = after := by
  unfold afterLast
  rw [String.toList_ofList, List.reverse_reverse, List.takeWhile_append_of_pos]
  · simp
  · intro c hc
    simpa using fun heq : c = a => hno (heq ▸ hc)

theorem afterLast_of_not_mem {s : String} (h : a ∉ s.toList) :
    afterLast a s = s.toList.reverse := by
  unfold afterLast
  apply List.takeWhile_eq_self_iff.mpr
  intro c hc
  simpa using fun heq : c = a => h (heq ▸ List.mem_reverse.mp hc)

/-- The last `a`, written as `b`, is found again if no `b` stands behind it. -/
theorem foldText_replaceLast_replaceLast (hab : fold a ≠ fold b) (s : String) :
    foldText fold (replaceLast b a (replaceLast a b s)) = foldText fold s ↔
      b ∉ afterLast a s := by
  by_cases hs : a ∈ s.toList
  · obtain ⟨after, before, hno, rfl⟩ := exists_last hs
    rw [replaceLast_last hno, afterLast_last hno]
    constructor
    · intro heq hb
      obtain ⟨after₁, after₂, rfl, hno₁⟩ := List.eq_append_cons_of_mem hb
      rw [List.append_assoc, List.cons_append, replaceLast_last hno₁, foldText_ofList_reverse,
        foldText_ofList_reverse] at heq
      simp only [String.ofList_inj, List.reverse_inj, List.map_append, List.map_cons,
        List.append_assoc, List.cons_append, List.append_cancel_left_eq, List.cons.injEq] at heq
      exact hab heq.1
    · intro hb
      rw [replaceLast_last hb]
  · rw [replaceLast_of_not_mem hs, afterLast_of_not_mem hs]
    by_cases hb : b ∈ s.toList
    · exact iff_of_false (foldText_replaceLast_ne (Ne.symm hab) hb) (by simpa using hb)
    · exact iff_of_true (by rw [replaceLast_of_not_mem hb]) (by simpa using hb)

end Fold

/-! ## From the name and back -/

/-- Nodeprep folds characters by `fold`, which spares the two signs, and `getUnescapedNode`
replaces escape sequences by shorter texts, in upper and in lower case. -/
structure Folding (env : Env) (fold : Char → Char) : Prop where
  idem : ∀ c, fold (fold c) = fold c
  sign : ∀ c, fold c = '@' ↔ c = '@'
  percent : ∀ c, fold c = '%' ↔ c = '%'
  unescaped : ∀ s, env.unescapedNode (foldText fold s) = foldText fold (env.unescapedNode s)
  shorter : ∀ s, env.unescapedNode s ≠ s → (env.unescapedNode s).length < s.length

/-- The roster holds every buddy under his lower-case name, and names that are the same in lower
case are folded alike. -/
structure Roster.Keyed (fold : Char → Char) (roster : Roster) : Prop where
  keyed : ∀ k b, roster.buddies k = some b → roster.toLower b.name = k
  lower : ∀ s t, roster.toLower s = roster.toLower t → foldText fold s = foldText fold t

/-- A message to the JID of the buddy goes to his name, up to case. -/
def RoundTrips (env : Env) (fold : Char → Char) (user : Option Roster) (b : LocalBuddy) : Prop :=
  foldText fold (jidToLegacyName env.toConfig user (b.getJid env)) = foldText fold b.name

/-- With the flag, the name has something to escape or no `%`. Without it, the name with its last
`@` written as `%` has no escape sequence, and no `%` stands behind the last `@`. -/
def Reversible (env : Env) (b : LocalBuddy) : Prop :=
  if b.jidEscaping then ¬(env.escapedNode b.name = b.name ∧ '%' ∈ b.name.toList)
  else env.unescapedNode (replaceLast '@' '%' b.name) = replaceLast '@' '%' b.name ∧
    '%' ∉ afterLast '@' b.name

section Back

variable {env : Env} {fold : Char → Char} {user : Option Roster} {b : LocalBuddy}

theorem Folding.ne (h : Folding env fold) : fold '@' ≠ fold '%' := by
  rw [(h.sign _).mpr rfl, (h.percent _).mpr rfl]
  decide

/-- Folding does not hide that a node has an escape sequence. -/
theorem Folding.unescaped_iff (h : Folding env fold) (s : String) :
    env.unescapedNode (foldText fold s) = foldText fold s ↔ env.unescapedNode s = s := by
  rw [h.unescaped]
  constructor
  · intro heq
    by_contra hne
    have hshort := h.shorter s hne
    have hlength := congrArg String.length heq
    rw [length_foldText, length_foldText] at hlength
    omega
  · intro heq
    rw [heq]

theorem Folding.legacyName (h : Folding env fold) {j : Jid} {s : String}
    (hnode : j.node = foldText fold s) : foldText fold (legacyName env.toConfig j) =
      foldText fold (if env.unescapedNode s = s then replaceLast '%' '@' s
        else env.unescapedNode s) := by
  unfold Spectrum.legacyName
  rw [hnode, if_congr (h.unescaped_iff s) rfl rfl]
  split
  · rw [foldText_replaceLast h.percent ((h.sign _).mpr rfl), foldText_foldText h.idem,
      ← foldText_replaceLast h.percent ((h.sign _).mpr rfl)]
  · rw [h.unescaped, foldText_foldText h.idem]

/-- A buddy that is found in the roster has the name that was looked up, up to case. -/
theorem foldText_jidToLegacyName (huser : ∀ roster ∈ user, roster.Keyed fold) (cfg : Config)
    (j : Jid) : foldText fold (jidToLegacyName cfg user j) = foldText fold (legacyName cfg j) := by
  unfold jidToLegacyName
  cases user with
  | none => rfl
  | some roster =>
    have hroster := huser roster rfl
    dsimp only
    split
    · rename_i b hb
      exact hroster.lower _ _ (hroster.keyed _ b hb)
    · rfl

/-- Decoding a name that was encoded with the flag. -/
theorem roundTrips_escaped (hfold : Folding env fold) (hesc : Room.Escaping env) (name : String) :
    foldText fold (if env.unescapedNode (env.escapedNode name) = env.escapedNode name then
        replaceLast '%' '@' (env.escapedNode name)
      else env.unescapedNode (env.escapedNode name)) = foldText fold name ↔
      ¬(env.escapedNode name = name ∧ '%' ∈ name.toList) := by
  rw [hesc.inverse]
  by_cases hplain : name = env.escapedNode name
  · rw [if_pos hplain, ← hplain]
    by_cases hpercent : '%' ∈ name.toList
    · exact iff_of_false (foldText_replaceLast_ne (Ne.symm hfold.ne) hpercent)
        (not_not.mpr ⟨rfl, hpercent⟩)
    · exact iff_of_true (by rw [replaceLast_of_not_mem hpercent]) fun h => hpercent h.2
  · rw [if_neg hplain]
    exact iff_of_true rfl fun h => hplain h.1.symm

/-- Decoding a name whose last `@` was written as `%`. -/
theorem roundTrips_replaced (hfold : Folding env fold) (name : String) :
    foldText fold (if env.unescapedNode (replaceLast '@' '%' name) = replaceLast '@' '%' name then
        replaceLast '%' '@' (replaceLast '@' '%' name)
      else env.unescapedNode (replaceLast '@' '%' name)) = foldText fold name ↔
      env.unescapedNode (replaceLast '@' '%' name) = replaceLast '@' '%' name ∧
        '%' ∉ afterLast '@' name := by
  split
  · rename_i hplain
    rw [foldText_replaceLast_replaceLast hfold.ne]
    exact (and_iff_right hplain).symm
  · rename_i hne
    refine iff_of_false (fun heq => ?_) fun h => hne h.1
    -- the decoded text is shorter than the name
    have hshort := hfold.shorter _ hne
    have hlength := congrArg String.length heq
    rw [length_foldText, length_foldText] at hlength
    rw [length_replaceLast] at hshort
    omega

/-- If nodeprep accepts the node of a buddy and only folds its case, the way to his JID and back
leads to his name exactly for the reversible buddies. -/
theorem roundTrips_iff (hesc : Room.Escaping env) (hfold : Folding env fold)
    (huser : ∀ roster ∈ user, roster.Keyed fold)
    (hnode : env.prep.node (b.getSafeName env) = foldText fold (b.getSafeName env)) :
    RoundTrips env fold user b ↔ Reversible env b := by
  unfold RoundTrips Reversible
  rw [foldText_jidToLegacyName huser, hfold.legacyName (s := b.getSafeName env) hnode]
  unfold LocalBuddy.getSafeName encodeName
  split
  · exact roundTrips_escaped hfold hesc b.name
  · exact roundTrips_replaced hfold b.name

end Back

namespace Sample

theorem foldText_id (s : String) : foldText id s = s := by
  simp [foldText]

/-- Nodes that are in lower case already. -/
theorem folding_escaping : Folding Room.Sample.escaping id where
  idem _ := rfl
  sign _ := Iff.rfl
  percent _ := Iff.rfl
  unescaped s := by
    rw [foldText_id, foldText_id]
  shorter s h := by
    rcases Lib.Escape.unescape_shorter s.toList with heq | hlt
    · exact absurd (by simp [Room.Sample.escaping, heq]) h
    · simpa [Room.Sample.escaping, ← String.length_toList] using hlt

def roster : Roster where
  toLower := id
  buddies name := if name = "bob@example.com" then some ⟨name, true⟩ else none

theorem keyed_roster : roster.Keyed id where
  keyed k b h := by
    simp only [roster] at h
    split at h
    · cases h
      rfl
    · cases h
  lower s t h := by
    have heq : s = t := h
    rw [heq]

end Sample

theorem roundTrips_iff_bob :
    RoundTrips Room.Sample.escaping id (some Sample.roster) ⟨"bob@example.com", true⟩ := by
  refine (roundTrips_iff Room.Sample.escaping_escaping Sample.folding_escaping ?_ ?_).mpr ?_
  · rintro roster hroster
    cases hroster
    exact Sample.keyed_roster
  · rw [Sample.foldText_id]
    rfl
  · unfold Reversible
    rw [if_pos rfl]
    decide +kernel

/-- With the flag the name `100%fun` is its own node, and the node is read as `100@fun`. -/
theorem not_roundTrips_percent : ¬ ∀ env fold user b, Room.Escaping env → Folding env fold →
    (∀ roster ∈ user, roster.Keyed fold) →
    env.prep.node (b.getSafeName env) = foldText fold (b.getSafeName env) →
    RoundTrips env fold user b := by
  intro h
  have heq := h Room.Sample.escaping id none ⟨"100%fun", true⟩ Room.Sample.escaping_escaping
    Sample.folding_escaping (fun _ h => nomatch h) (by rw [Sample.foldText_id]; rfl)
  revert heq
  unfold RoundTrips
  decide +kernel

/-! ## From the JID and back -/

section Forth

variable {env : Env} {user : Option Roster} {j : Jid}

theorem name_of_stranger {cfg : Config}
    (hstranger : ∀ roster ∈ user, roster.getBuddy (legacyName cfg j) = none) :
    (buddyOfJid cfg user j).name = legacyName cfg j := by
  simp only [buddyOfJid, jidToLegacyName]
  cases user with
  | none => rfl
  | some roster => simp only [hstranger roster rfl]

/-- The flag and the name are guessed alike, so the new buddy encodes his name to the node. -/
theorem getSafeName_buddyOfJid
    (hstranger : ∀ roster ∈ user, roster.getBuddy (legacyName env.toConfig j) = none)
    (hsign : '@' ∉ j.node.toList)
    (hnode : env.unescapedNode j.node = j.node ∨ ∃ s, j.node = env.escapedNode s)
    (himage : ∀ s, env.escapedNode (env.unescapedNode (env.escapedNode s)) = env.escapedNode s) :
    (buddyOfJid env.toConfig user j).getSafeName env = j.node := by
  have hname := name_of_stranger hstranger
  unfold LocalBuddy.getSafeName
  rw [hname]
  unfold legacyName encodeName
  by_cases hplain : env.unescapedNode j.node = j.node
  · have hflag : (buddyOfJid env.toConfig user j).jidEscaping = false := by
      simp [buddyOfJid, buddyFlagsFromJid, hplain]
    rw [hflag, if_pos hplain, if_neg Bool.false_ne_true]
    exact replaceLast_replaceLast hsign
  · have hflag : (buddyOfJid env.toConfig user j).jidEscaping = true := by
      simp [buddyOfJid, buddyFlagsFromJid, hplain]
    rw [hflag, if_neg hplain, if_pos rfl]
    rcases hnode with h | ⟨s, hs⟩
    · exact absurd h hplain
    · rw [hs]
      exact himage s

/-- A contact that is not in the roster keeps the node the user typed. The node of a JID has
been through nodeprep. -/
theorem safeName_buddyOfJid
    (hstranger : ∀ roster ∈ user, roster.getBuddy (legacyName env.toConfig j) = none)
    (hsign : '@' ∉ j.node.toList)
    (hnode : env.unescapedNode j.node = j.node ∨ ∃ s, j.node = env.escapedNode s)
    (himage : ∀ s, env.escapedNode (env.unescapedNode (env.escapedNode s)) = env.escapedNode s)
    (hprep : env.prep.node j.node = j.node) :
    (buddyOfJid env.toConfig user j).safeName env = j.node := by
  have hsafe := getSafeName_buddyOfJid hstranger hsign hnode himage
  unfold LocalBuddy.safeName LocalBuddy.getJid StringPrep.fullJid
  rw [hsafe]
  split
  · exact hprep
  · rfl

end Forth

/-- A node with several signs and an escape sequence, and one with two signs. -/
theorem safeName_buddyOfJid_signs :
    (buddyOfJid Room.Sample.escaping.toConfig (some Sample.roster)
      ⟨"a%b\\40c%d", "localhost", ""⟩).safeName Room.Sample.escaping = "a%b\\40c%d" ∧
    (buddyOfJid Room.Sample.escaping.toConfig none ⟨"a%b%c", "localhost", ""⟩).safeName
      Room.Sample.escaping = "a%b%c" := by
  have himage : ∀ s, Room.Sample.escaping.escapedNode (Room.Sample.escaping.unescapedNode
      (Room.Sample.escaping.escapedNode s)) = Room.Sample.escaping.escapedNode s := by
    intro s
    rw [Room.Sample.escaping_escaping.inverse]
  constructor
  · refine safeName_buddyOfJid ?_ (by decide) (.inr ⟨"a%b@c%d", by decide +kernel⟩) himage rfl
    rintro roster hroster
    cases hroster
    decide +kernel
  · exact safeName_buddyOfJid (fun _ h => nomatch h) (by decide) (.inl (by decide +kernel)) himage
      rfl

end Spectrum.Account
