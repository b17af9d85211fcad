import Spectrum.Lib.Machine
import Spectrum.Lib.Sorted
import Spectrum.Model.Oracle

/-!
# Who is online

What the presence oracle is for: to know from the presences of a bare JID which of its
resources are online, and to give the best of their presences. `Online` says this in terms of
the presences received so far.

The oracle keeps the last unavailable presence as a marker and stores probes and errors like
presences. A marker is removed only by a presence of its own resource, so it stays beside a
resource that comes online later, and its priority can win. The oracle is right in the runs in
which this does not happen (`Regular`).
-/

namespace Spectrum

open Lib

namespace Jid

theorem eq_of_resource {j k : Jid} (hbare : j.toBare = k.toBare) (h : j.resource = k.resource) :
    j = k := by
  obtain ⟨node, domain, resource⟩ := j
  obtain ⟨node', domain', resource'⟩ := k
  simp only [Jid.toBare, Jid.mk.injEq] at hbare h
  simp [hbare, h]

theorem toBare_of_isBare {j : Jid} (h : j.isBare = true) : j.toBare = j := by
  have hbare : j.toBare.toBare = j.toBare := rfl
  refine eq_of_resource hbare ?_
  simpa [isBare, toBare] using (beq_iff_eq.mp h).symm

theorem toBare_ne {j : Jid} (h : j.isBare = false) : j ≠ j.toBare := by
  intro heq
  rw [heq] at h
  simp [isBare, toBare] at h

end Jid

namespace PresenceMap

/-- Among the presences of one bare JID the assignment goes by the resource. -/
theorem assign_eq_upsert {p : Presence} {m : PresenceMap}
    (hm : ∀ q ∈ m, q.fromJid.toBare = p.fromJid.toBare) :
    assign p m = upsert (fun q => q.fromJid.resource) p m := by
  induction m with
  | nil => rfl
  | cons q m ih =>
    have hrest := ih fun q' hq' => hm q' (List.mem_cons_of_mem q hq')
    have hkey : q.fromJid = p.fromJid ↔ q.fromJid.resource = p.fromJid.resource :=
      ⟨fun h => by rw [h], Jid.eq_of_resource (hm q List.mem_cons_self)⟩
    simp only [assign, upsert, hrest, hkey]

theorem mem_eraseJid {j : Jid} {m : PresenceMap} {q : Presence} :
    q ∈ eraseJid j m ↔ q ∈ m ∧ q.fromJid ≠ j := by
  simp [eraseJid]

end PresenceMap

namespace Oracle

/-- The latest available or unavailable presence of the JID to the transport is an available
one, and no unavailable presence of its bare JID came after it. The history is newest first. -/
def Online (j : Jid) : List Presence → Bool
  | [] => false
  | p :: h =>
    if p.toJid.node ≠ "" then Online j h
    else if p.fromJid = j ∧ p.type = .available then true
    else if (p.fromJid = j ∨ p.fromJid = j.toBare) ∧ p.type = .unavailable then false
    else Online j h

/-- All runs of an oracle. -/
def machine : Machine Oracle Presence where
  init o := o = fun _ => []
  step o p := some (o.handleIncomingPresence p).1

/-- The best presence is an available one exactly if a resource is online, it is never of
another type, and no resource that is offline is listed beside one that is online. -/
structure Correct (h : List Presence) (bareJid : Jid) (o : Oracle) : Prop where
  available : (∃ p, o.getHighestPriorityPresence bareJid = some p ∧ p.type = .available) ↔
    ∃ j, j.isBare = false ∧ j.toBare = bareJid ∧ Online j h = true
  otherwise : ∀ p, o.getHighestPriorityPresence bareJid = some p →
    p.type = .available ∨ p.type = .unavailable
  listed : ∀ p ∈ o.getAllPresence bareJid, ∀ q ∈ o.getAllPresence bareJid,
    Online p.fromJid h = true → Online q.fromJid h = true

/-- The condition on a presence, for the entries of its bare JID: no probe and no error; an
available presence comes from a resource, and no marker of another resource is stored; an
unavailable presence of a resource, or an unsubscription, does not find another resource as the
only entry. -/
def Admissible (p : Presence) (m : PresenceMap) : PresenceType → Prop
  | .available => p.fromJid.isBare = false ∧
      ∀ q ∈ m, q.type = .unavailable → q.fromJid = p.fromJid ∨ q.fromJid = p.fromJid.toBare
  | .unavailable => p.fromJid.isBare = true ∨
      ∀ q ∈ m, m.length ≤ 1 → q.type = .available → q.fromJid = p.fromJid
  | .unsubscribe | .unsubscribed => ∀ q ∈ m, m.length ≤ 1 → q.type ≠ .available
  | .subscribe | .subscribed => True
  | .probe | .error => False

instance (p : Presence) (m : PresenceMap) (t : PresenceType) : Decidable (Admissible p m t) :=
  match t with
  | .available => inferInstanceAs (Decidable (p.fromJid.isBare = false ∧
      ∀ q ∈ m, q.type = .unavailable → q.fromJid = p.fromJid ∨ q.fromJid = p.fromJid.toBare))
  | .unavailable => inferInstanceAs (Decidable (p.fromJid.isBare = true ∨
      ∀ q ∈ m, m.length ≤ 1 → q.type = .available → q.fromJid = p.fromJid))
  | .unsubscribe | .unsubscribed =>
    inferInstanceAs (Decidable (∀ q ∈ m, m.length ≤ 1 → q.type ≠ .available))
  | .subscribe | .subscribed => isTrue trivial
  | .probe | .error => isFalse id

/-- The condition for one step: a presence to the transport is admissible. -/
def Regular (o : Oracle) (p : Presence) : Prop :=
  p.toJid.node = "" → Admissible p (o p.fromJid.toBare) p.type

instance (o : Oracle) (p : Presence) : Decidable (Regular o p) :=
  inferInstanceAs (Decidable (_ → _))

/-! ## The best presence -/

theorem foldl_higher_some (m : PresenceMap) (x : Presence) : ∃ p, m.foldl higher (some x) = some p ∧
    (p = x ∨ p ∈ m) := by
  induction m generalizing x with
  | nil => exact ⟨x, rfl, .inl rfl⟩
  | cons q m ih =>
    rw [List.foldl_cons]
    have hone : higher (some x) q = some q ∨ higher (some x) q = some x := by
      simp only [higher]
      split
      · exact .inl rfl
      · exact .inr rfl
    rcases hone with hone | hone
    · obtain ⟨p, hp, hmem⟩ := ih q
      exact ⟨p, by rw [hone, hp], .inr (List.mem_cons.mpr hmem)⟩
    · obtain ⟨p, hp, hmem⟩ := ih x
      refine ⟨p, by rw [hone, hp], hmem.imp_right (List.mem_cons_of_mem q)⟩

theorem getHighestPriorityPresence_mem {b : Jid} {o : Oracle} {p : Presence}
    (h : o.getHighestPriorityPresence b = some p) : p ∈ o b := by
  unfold getHighestPriorityPresence at h
  cases hm : o b with
  | nil =>
    rw [hm] at h
    cases h
  | cons q m =>
    rw [hm, List.foldl_cons] at h
    obtain ⟨p', hp', hmem⟩ := foldl_higher_some m q
    rw [show higher none q = some q from rfl, hp'] at h
    cases h
    exact List.mem_cons.mpr hmem

theorem exists_getHighestPriorityPresence {b : Jid} {o : Oracle} {q : Presence} (hq : q ∈ o b) :
    ∃ p, o.getHighestPriorityPresence b = some p := by
  unfold getHighestPriorityPresence
  cases hm : o b with
  | nil =>
    rw [hm] at hq
    cases hq
  | cons q' m =>
    obtain ⟨p, hp, -⟩ := foldl_higher_some m q'
    exact ⟨p, hp⟩

/-! ## The invariant -/

/-- The entries of the bare JID `b` are those of its online resources, or markers. -/
structure Tracks (h : List Presence) (b : Jid) (m : PresenceMap) : Prop where
  own : ∀ q ∈ m, q.fromJid.toBare = b
  sorted : SortedBy (fun q : Presence => q.fromJid.resource) m
  present : ∀ j, j.toBare = b → Online j h = true → ∃ q ∈ m, q.fromJid = j
  uniform : (∀ q ∈ m, q.type = .available ∧ Online q.fromJid h = true) ∨
    ∀ q ∈ m, q.type = .unavailable ∧ Online q.fromJid h = false
  bareOff : Online b h = false

theorem tracks_nil (b : Jid) : Tracks [] b [] where
  own := by simp
  sorted := List.Pairwise.nil
  present := by simp [Online]
  uniform := .inl (by simp)
  bareOff := rfl

theorem Tracks.correct {h : List Presence} {j : Jid} {o : Oracle}
    (ht : Tracks h j.toBare (o j.toBare)) : Correct h j.toBare o := by
  refine ⟨⟨?_, ?_⟩, ?_, ?_⟩
  · rintro ⟨p, hp, htype⟩
    have hmem := getHighestPriorityPresence_mem hp
    rcases ht.uniform with hall | hall
    · refine ⟨p.fromJid, ?_, ht.own p hmem, (hall p hmem).2⟩
      by_contra hbare
      have heq : p.fromJid = j.toBare := by
        rw [← ht.own p hmem]
        exact (Jid.toBare_of_isBare (by simpa using hbare)).symm
      have honline := (hall p hmem).2
      rw [heq, ht.bareOff] at honline
      cases honline
    · rw [(hall p hmem).1] at htype
      cases htype
  · rintro ⟨k, -, hbare, honline⟩
    obtain ⟨q, hq, rfl⟩ := ht.present k hbare honline
    obtain ⟨p, hp⟩ := exists_getHighestPriorityPresence hq
    refine ⟨p, hp, ?_⟩
    rcases ht.uniform with hall | hall
    · exact (hall p (getHighestPriorityPresence_mem hp)).1
    · rw [(hall q hq).2] at honline
      cases honline
  · intro p hp
    have hmem := getHighestPriorityPresence_mem hp
    rcases ht.uniform with hall | hall
    · exact .inl (hall p hmem).1
    · exact .inr (hall p hmem).1
  · intro p hp q hq honline
    rcases ht.uniform with hall | hall
    · exact (hall q hq).2
    · rw [(hall p hp).2] at honline
      cases honline

/-! ## One presence -/

section Step

variable {h : List Presence} {b : Jid} {m : PresenceMap} {p : Presence}

/-- A presence that the history ignores. -/
theorem Tracks.skip (ht : Tracks h b m) (hskip : ∀ j, j.toBare = b → Online j (p :: h) = Online j h)
    (hb : b.toBare = b) : Tracks (p :: h) b m where
  own := ht.own
  sorted := ht.sorted
  present := by
    intro j hj honline
    rw [hskip j hj] at honline
    exact ht.present j hj honline
  uniform := by
    refine ht.uniform.imp (fun hall q hq => ?_) fun hall q hq => ?_
    · rw [hskip _ (ht.own q hq)]
      exact hall q hq
    · rw [hskip _ (ht.own q hq)]
      exact hall q hq
  bareOff := by
    rw [hskip b hb]
    exact ht.bareOff

theorem online_available (hto : p.toJid.node = "") (htype : p.type = .available) (j : Jid) :
    Online j (p :: h) = if p.fromJid = j then true else Online j h := by
  simp [Online, hto, htype]

theorem online_unavailable (hto : p.toJid.node = "") (htype : p.type = .unavailable) (j : Jid) :
    Online j (p :: h) =
      if p.fromJid = j ∨ p.fromJid = j.toBare then false else Online j h := by
  simp [Online, hto, htype]

/-- Storing the presence replaces the entry of its resource. -/
theorem mem_assign (ht : Tracks h b m) (hp : p.fromJid.toBare = b) {q : Presence} :
    q ∈ PresenceMap.assign p m ↔ q = p ∨ q ∈ m ∧ q.fromJid ≠ p.fromJid := by
  rw [PresenceMap.assign_eq_upsert fun q hq => (ht.own q hq).trans hp.symm, mem_upsert ht.sorted]
  refine or_congr_right (and_congr_right fun hq => not_congr ⟨fun h => ?_, fun h => by rw [h]⟩)
  exact Jid.eq_of_resource ((ht.own q hq).trans hp.symm) h

theorem sorted_assign (ht : Tracks h b m) (hp : p.fromJid.toBare = b) :
    SortedBy (fun q : Presence => q.fromJid.resource) (PresenceMap.assign p m) := by
  rw [PresenceMap.assign_eq_upsert fun q hq => (ht.own q hq).trans hp.symm]
  exact ht.sorted.upsert p

theorem Tracks.eraseJid (ht : Tracks h b m) (j : Jid) (hj : Online j h = false) :
    Tracks h b (PresenceMap.eraseJid j m) where
  own := fun q hq => ht.own q (PresenceMap.mem_eraseJid.mp hq).1
  sorted := ht.sorted.filter _
  present := by
    intro k hk honline
    obtain ⟨q, hq, rfl⟩ := ht.present k hk honline
    refine ⟨q, PresenceMap.mem_eraseJid.mpr ⟨hq, ?_⟩, rfl⟩
    rintro rfl
    rw [hj] at honline
    cases honline
  uniform := ht.uniform.imp (fun hall q hq => hall q (PresenceMap.mem_eraseJid.mp hq).1)
    fun hall q hq => hall q (PresenceMap.mem_eraseJid.mp hq).1
  bareOff := ht.bareOff

/-- A resource comes online, and no marker of another one is stored. -/
theorem Tracks.available (ht : Tracks h b m) (hp : p.fromJid.toBare = b)
    (hto : p.toJid.node = "") (htype : p.type = .available) (hfull : p.fromJid.isBare = false)
    (hother : ∀ q ∈ m, q.type = .unavailable → q.fromJid = p.fromJid ∨ q.fromJid = b) :
    Tracks (p :: h) b (PresenceMap.assign p (PresenceMap.eraseJid b m)) := by
  have ht' := ht.eraseJid b ht.bareOff
  have hne : p.fromJid ≠ b := hp ▸ Jid.toBare_ne hfull
  have honline : ∀ q ∈ m, q.fromJid ≠ p.fromJid → q.fromJid ≠ b →
      q.type = .available ∧ Online q.fromJid h = true := by
    intro q hq hqp hqb
    rcases ht.uniform with hall | hall
    · exact hall q hq
    · exact absurd (hother q hq (hall q hq).1) (by simp [hqp, hqb])
  refine ⟨?_, sorted_assign ht' hp, ?_, .inl ?_, ?_⟩
  · intro q hq
    rcases (mem_assign ht' hp).mp hq with rfl | ⟨hq, -⟩
    · exact hp
    · exact ht'.own q hq
  · intro j hj hon
    rw [online_available hto htype] at hon
    split at hon
    · rename_i heq
      exact ⟨p, (mem_assign ht' hp).mpr (.inl rfl), heq⟩
    · rename_i hjp
      obtain ⟨q, hq, rfl⟩ := ht'.present j hj hon
      exact ⟨q, (mem_assign ht' hp).mpr (.inr ⟨hq, Ne.symm hjp⟩), rfl⟩
  · intro q hq
    rw [online_available hto htype]
    rcases (mem_assign ht' hp).mp hq with rfl | ⟨hq, hqp⟩
    · exact ⟨htype, if_pos rfl⟩
    · rw [if_neg (Ne.symm hqp)]
      obtain ⟨hqm, hqb⟩ := PresenceMap.mem_eraseJid.mp hq
      exact honline q hqm hqp hqb
  · rw [online_available hto htype, if_neg hne]
    exact ht.bareOff

/-- The bare JID goes offline. -/
theorem tracks_bareUnavailable (hp : p.fromJid = b) (hb : b.toBare = b) (hto : p.toJid.node = "")
    (htype : p.type = .unavailable) : Tracks (p :: h) b (PresenceMap.assign p []) := by
  have hoff : ∀ j, j.toBare = b → Online j (p :: h) = false := by
    intro j hj
    rw [online_unavailable hto htype, if_pos (.inr (hp.trans hj.symm))]
  have hmem : ∀ q ∈ PresenceMap.assign p [], q = p := by simp [PresenceMap.assign]
  refine ⟨?_, List.pairwise_singleton _ _, ?_, .inr ?_, hoff b hb⟩
  · intro q hq
    rw [hmem q hq, hp, hb]
  · intro j hj hon
    rw [hoff j hj] at hon
    cases hon
  · intro q hq
    rw [hmem q hq]
    exact ⟨htype, hoff _ (by rw [hp, hb])⟩

/-- A resource goes offline beside others. -/
theorem Tracks.leave (ht : Tracks h b m) (hp : p.fromJid.toBare = b)
    (hfull : p.fromJid.isBare = false) (hb : b.toBare = b) (hto : p.toJid.node = "")
    (htype : p.type = .unavailable) :
    Tracks (p :: h) b (PresenceMap.eraseJid p.fromJid m) := by
  have hne : p.fromJid ≠ b := hp ▸ Jid.toBare_ne hfull
  have honline : ∀ j, j.toBare = b →
      Online j (p :: h) = if p.fromJid = j then false else Online j h := by
    intro j hj
    rw [online_unavailable hto htype, hj]
    simp [hne]
  refine ⟨fun q hq => ht.own q (PresenceMap.mem_eraseJid.mp hq).1, ht.sorted.filter _, ?_, ?_, ?_⟩
  · intro j hj hon
    rw [honline j hj] at hon
    split at hon
    · cases hon
    · rename_i hjp
      obtain ⟨q, hq, rfl⟩ := ht.present j hj hon
      exact ⟨q, PresenceMap.mem_eraseJid.mpr ⟨hq, Ne.symm hjp⟩, rfl⟩
  · have hstay : ∀ q ∈ PresenceMap.eraseJid p.fromJid m,
        q ∈ m ∧ Online q.fromJid (p :: h) = Online q.fromJid h := by
      intro q hq
      obtain ⟨hqm, hqp⟩ := PresenceMap.mem_eraseJid.mp hq
      rw [honline _ (ht.own q hqm), if_neg (Ne.symm hqp)]
      exact ⟨hqm, rfl⟩
    refine ht.uniform.imp (fun hall q hq => ?_) fun hall q hq => ?_
    · rw [(hstay q hq).2]
      exact hall q (hstay q hq).1
    · rw [(hstay q hq).2]
      exact hall q (hstay q hq).1
  · rw [honline b hb, if_neg hne]
    exact ht.bareOff

/-- A marker is stored: nothing else is online then. -/
theorem Tracks.mark (ht : Tracks h b m) {passed : Presence} (hpassed : passed.fromJid.toBare = b)
    (htype : passed.type = .unavailable) (hb : b.toBare = b)
    (hoff : ∀ j, j.toBare = b → Online j (p :: h) = true → Online j h = true)
    (hpoff : Online passed.fromJid (p :: h) = false)
    (hother : ∀ q ∈ m, q.type = .available → q.fromJid = passed.fromJid) :
    Tracks (p :: h) b (PresenceMap.assign passed m) := by
  have hmarkers : ∀ q ∈ m, q.fromJid ≠ passed.fromJid →
      q.type = .unavailable ∧ Online q.fromJid h = false := by
    intro q hq hne
    rcases ht.uniform with hall | hall
    · exact absurd (hother q hq (hall q hq).1) hne
    · exact hall q hq
  have hoff' : ∀ j, j.toBare = b → Online j h = false → Online j (p :: h) = false := by
    intro j hj hfalse
    cases hon : Online j (p :: h) with
    | false => rfl
    | true =>
      rw [hoff j hj hon] at hfalse
      cases hfalse
  refine ⟨?_, sorted_assign ht hpassed, ?_, .inr ?_, hoff' b hb ht.bareOff⟩
  · intro q hq
    rcases (mem_assign ht hpassed).mp hq with rfl | ⟨hq, -⟩
    · exact hpassed
    · exact ht.own q hq
  · intro j hj hon
    obtain ⟨q, hq, rfl⟩ := ht.present j hj (hoff j hj hon)
    by_cases hqp : q.fromJid = passed.fromJid
    · rw [hqp, hpoff] at hon
      cases hon
    · have hfalse := (hmarkers q hq hqp).2
      rw [hoff _ hj hon] at hfalse
      cases hfalse
  · intro q hq
    rcases (mem_assign ht hpassed).mp hq with rfl | ⟨hq, hqp⟩
    · exact ⟨htype, hpoff⟩
    · obtain ⟨hunavailable, hfalse⟩ := hmarkers q hq hqp
      exact ⟨hunavailable, hoff' _ (ht.own q hq) hfalse⟩

/-- What an unsubscription is passed on as. -/
def unsubscription (p : Presence) : Presence :=
  { fromJid := p.fromJid.toBare, toJid := Jid.empty, type := .unavailable, status := p.status }

theorem handleIncomingPresence_other {o : Oracle} (hne : p.fromJid.toBare ≠ b) :
    (o.handleIncomingPresence p).1 b = o b := by
  unfold handleIncomingPresence
  split
  · rfl
  · split
    · rfl
    · exact Function.update_of_ne (Ne.symm hne) _ _

theorem Tracks.unsubscribe {o : Oracle} (ht : Tracks h b (o b)) (hb : b.toBare = b)
    (hp : p.fromJid.toBare = b) (htype : p.type = .unsubscribe ∨ p.type = .unsubscribed)
    (hsingle : ∀ q ∈ o b, (o b).length ≤ 1 → q.type ≠ .available) :
    Tracks (p :: h) b (if 1 < (o b).length then PresenceMap.eraseJid b (o b)
      else PresenceMap.assign (unsubscription p) (o b)) := by
  have hskip : ∀ j, Online j (p :: h) = Online j h := by
    intro j
    rcases htype with htype | htype <;> simp [Online, htype]
  split
  · exact (ht.eraseJid b ht.bareOff).skip (fun j _ => hskip j) hb
  · rename_i hlen
    refine ht.mark ?_ rfl hb (fun j _ hon => (hskip j) ▸ hon) ?_ ?_
    · simp [unsubscription, hp, hb]
    · rw [hskip]
      simpa [unsubscription, hp] using ht.bareOff
    · intro q hq hav
      exact absurd hav (hsingle q hq (Nat.le_of_not_lt hlen))

theorem Tracks.step {o : Oracle} (ht : Tracks h b (o b)) (hb : b.toBare = b) (hr : Regular o p) :
    Tracks (p :: h) b ((o.handleIncomingPresence p).1 b) := by
  by_cases hto : p.toJid.node = ""
  · by_cases hp : p.fromJid.toBare = b
    · subst hp
      have hadm := hr hto
      have hsame : (p.type = .subscribe ∨ p.type = .subscribed) →
          Tracks (p :: h) p.fromJid.toBare (o p.fromJid.toBare) := by
        intro htype
        refine ht.skip (fun j _ => ?_) hb
        rcases htype with htype | htype <;> simp [Online, htype]
      cases htype : p.type with
      | available =>
        rw [htype] at hadm
        have hstep := ht.available rfl hto htype hadm.1 hadm.2
        simpa [handleIncomingPresence, hto, htype] using hstep
      | unavailable =>
        rw [htype] at hadm
        by_cases hbare : p.fromJid.isBare = true
        · have heq := Jid.toBare_of_isBare hbare
          have hstep := tracks_bareUnavailable (h := h) heq.symm hb hto htype
          simpa [handleIncomingPresence, hto, htype, hbare] using hstep
        · have hfull : p.fromJid.isBare = false := by simpa using hbare
          have hsingle := hadm.resolve_left hbare
          by_cases hlen : 1 < (o p.fromJid.toBare).length
          · have hstep := ht.leave rfl hfull hb hto htype
            simpa [handleIncomingPresence, hto, htype, hfull, hlen] using hstep
          · have hstep : Tracks (p :: h) p.fromJid.toBare
                (PresenceMap.assign p (o p.fromJid.toBare)) := by
              refine ht.mark rfl htype hb ?_ ?_ ?_
              · intro j _ hon
                rw [online_unavailable hto htype] at hon
                split at hon
                · cases hon
                · exact hon
              · rw [online_unavailable hto htype, if_pos (.inl rfl)]
              · intro q hq hav
                exact hsingle q hq (Nat.le_of_not_lt hlen) hav
            simpa [handleIncomingPresence, hto, htype, hfull, hlen] using hstep
      | unsubscribe =>
        rw [htype] at hadm
        have hstep := ht.unsubscribe hb rfl (.inl htype) hadm
        simpa [handleIncomingPresence, hto, htype, unsubscription] using hstep
      | unsubscribed =>
        rw [htype] at hadm
        have hstep := ht.unsubscribe hb rfl (.inr htype) hadm
        simpa [handleIncomingPresence, hto, htype, unsubscription] using hstep
      | subscribe =>
        simpa [handleIncomingPresence, hto, htype] using hsame (.inl htype)
      | subscribed =>
        simpa [handleIncomingPresence, hto, htype] using hsame (.inr htype)
      | probe =>
        rw [htype] at hadm
        exact hadm.elim
      | error =>
        rw [htype] at hadm
        exact hadm.elim
    · rw [handleIncomingPresence_other hp]
      refine ht.skip (fun j hj => ?_) hb
      have hne : p.fromJid ≠ j := by
        rintro rfl
        exact hp hj
      have hne' : p.fromJid ≠ j.toBare := by
        intro heq
        apply hp
        rw [heq, hj, hb]
      simp [Online, hne, hne']
  · have hsame : (o.handleIncomingPresence p).1 = o := by simp [handleIncomingPresence, hto]
    rw [hsame]
    exact ht.skip (fun j _ => by simp [Online, hto]) hb

end Step

/-! ## Every run -/

/-- In every run of regular presences the oracle is right about every bare JID. -/
theorem correct_of_regular {tr : List (Oracle × Presence)} {o : Oracle} (h : machine.Run tr o)
    (hr : Machine.Meets Regular tr) (j : Jid) : Correct (tr.map Prod.snd) j.toBare o := by
  suffices ht : Tracks (tr.map Prod.snd) j.toBare (o j.toBare) from ht.correct
  induction h with
  | init h0 =>
    cases h0
    exact tracks_nil _
  | step _ hs ih =>
    obtain ⟨hregular, hrest⟩ := Machine.meets_cons.mp hr
    cases hs
    exact (ih hrest).step rfl hregular

namespace Sample

def presence (resource : String) (type : PresenceType) (priority : Int) : Presence where
  fromJid := ⟨"alice", "example.org", resource⟩
  toJid := ⟨"", "localhost", ""⟩
  type := type
  priority := priority

end Sample

/-- Two resources, and one of them leaves. -/
theorem correct_of_regular_alice :
    ∃ tr o, machine.Run tr o ∧ Machine.Meets Regular tr ∧
      (∃ p, o.getHighestPriorityPresence ⟨"alice", "example.org", ""⟩ = some p ∧
        p.fromJid.resource = "work") ∧
      Correct (tr.map Prod.snd) ⟨"alice", "example.org", ""⟩ o := by
  have hexec : ∃ o, (machine.restrict Regular).exec (fun _ => [])
      [Sample.presence "home" .available 5, Sample.presence "work" .available 0,
        Sample.presence "home" .unavailable 0] = some o ∧
      ∃ p, o.getHighestPriorityPresence ⟨"alice", "example.org", ""⟩ = some p ∧
        p.fromJid.resource = "work" := ⟨_, by rfl, _, by rfl, by rfl⟩
  obtain ⟨o, ho, hp⟩ := hexec
  have hinit : machine.init fun _ => [] := rfl
  obtain ⟨tr, hrun, hmeets⟩ := Machine.exists_run_of_restrict hinit ho
  exact ⟨tr, o, hrun, hmeets, hp,
    correct_of_regular hrun hmeets ⟨"alice", "example.org", "home"⟩⟩

/-- The marker of the resource that left last wins over the resource that comes online with a
negative priority. -/
theorem not_correct_of_marker :
    ¬ ∀ (tr : List (Oracle × Presence)) (o : Oracle) (j : Jid), machine.Run tr o →
      Correct (tr.map Prod.snd) j.toBare o := by
  intro hall
  have hexec : ∃ o, machine.exec (fun _ => [])
      [Sample.presence "home" .available 0, Sample.presence "home" .unavailable 0,
        Sample.presence "work" .available (-1)] = some o ∧
      ∃ p, o.getHighestPriorityPresence ⟨"alice", "example.org", ""⟩ = some p ∧
        p.type = .unavailable := ⟨_, by rfl, _, by rfl, by rfl⟩
  obtain ⟨o, ho, p, hp, htype⟩ := hexec
  have hinit : machine.init fun _ => [] := rfl
  obtain ⟨tr, hrun, hevents⟩ := Machine.exists_run_of_exec hinit ho
  have hcorrect := hall tr o ⟨"alice", "example.org", "work"⟩ hrun
  rw [hevents] at hcorrect
  obtain ⟨q, hq, havailable⟩ := hcorrect.available.mpr
    ⟨⟨"alice", "example.org", "work"⟩, by decide, rfl, by decide⟩
  rw [show Jid.toBare ⟨"alice", "example.org", "work"⟩ = ⟨"alice", "example.org", ""⟩ from rfl,
    hp] at hq
  cases hq
  rw [htype] at havailable
  cases havailable

end Oracle

end Spectrum
