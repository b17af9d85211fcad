import Spectrum.Model.Stanza

/-!
# The presence oracle

`Transport::PresenceOracle`: for every bare JID the latest presence of each of its full
JIDs, as a list ordered by resource like the `std::map` of the source. Only presences to
the transport itself are kept.
-/

namespace Spectrum

/-- The presences of one bare JID, ordered by resource. -/
abbrev PresenceMap := List Presence

namespace PresenceMap

def eraseJid (j : Jid) (m : PresenceMap) : PresenceMap := m.filter fun p => p.fromJid ≠ j

/-- `jidMap[presence->getFrom()] = presence`. -/
def assign (p : Presence) : PresenceMap → PresenceMap
  | [] => [p]
  | q :: m =>
    if q.fromJid = p.fromJid then p :: m
    else if p.fromJid.resource < q.fromJid.resource then p :: q :: m
    else q :: assign p m

end PresenceMap

/-- `PresenceOracle::entries_`. -/
abbrev Oracle := Jid → PresenceMap

namespace Oracle

def clearPresences (bareJid : Jid) (o : Oracle) : Oracle :=
  Function.update o bareJid []

/-- `handleIncomingPresence`, with the presence it passes on through `onPresenceChange`. -/
def handleIncomingPresence (p : Presence) (o : Oracle) : Oracle × Option Presence :=
  if p.toJid.node ≠ "" then (o, none)
  else if p.type = .subscribe ∨ p.type = .subscribed then (o, none)
  else
    let bareJid := p.fromJid.toBare
    let passed : Presence :=
      if p.type = .unsubscribe ∨ p.type = .unsubscribed then
        { fromJid := bareJid, toJid := Jid.empty, type := .unavailable, status := p.status }
      else p
    let m := o bareJid
    let m :=
      if passed.fromJid.isBare = true ∧ p.type = .unavailable then []
      else if passed.type = .available then PresenceMap.eraseJid bareJid m
      else m
    let m :=
      if passed.type = .unavailable ∧ 1 < m.length then PresenceMap.eraseJid passed.fromJid m
      else PresenceMap.assign passed m
    (Function.update o bareJid m, some passed)

def getAllPresence (bareJid : Jid) (o : Oracle) : List Presence := o bareJid

/-- The comparison of `getHighestPriorityPresence`: a later entry wins only if it is
strictly better. -/
def higher (highest : Option Presence) (current : Presence) : Option Presence :=
  match highest with
  | none => some current
  | some h =>
    if h.priority < current.priority ∨
        (current.priority = h.priority ∧
          h.getShow.availability < current.getShow.availability) then some current
    else some h

def getHighestPriorityPresence (bareJid : Jid) (o : Oracle) : Option Presence :=
  (o bareJid).foldl higher none

end Oracle

end Spectrum
