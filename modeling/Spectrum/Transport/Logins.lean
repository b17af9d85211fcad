import Spectrum.Transport.Still

/-!
# LOGINs in the log

The log tells which assignment of a user is open and how many LOGINs its backend got for him
since (`openLogins`): an assignment is closed by the next one and by a LOGOUT. `LoginsInOrder`
says of a whole log that no assignment saw two LOGINs, and that a LOGIN only goes to the backend
of a user who is ready, as the first one.
-/

namespace Spectrum

open World NetworkPluginServer

/-! ## Open assignments -/

/-- The open assignment of the user, with the number of LOGINs its backend got for his JID. -/
def openLogins (u : UserId) (j : Jid) : List Effect → Option (BackendId × Nat)
  | [] => none
  | .assign _ v b _ :: l => if v = u then some (b, 0) else openLogins u j l
  | .send b (.login i _ _) :: l =>
    (openLogins u j l).map fun o => if i = j ∧ b = o.1 then (o.1, o.2 + 1) else o
  | .send b (.logout i _) :: l => (openLogins u j l).filter fun o => ¬ (i = j ∧ b = o.1)
  | _ :: l => openLogins u j l

structure LoginsInOrder (user : UserId → User) (log : List Effect) : Prop where
  once : ∀ l, l <:+ log → ∀ u b n, openLogins u (user u).jid.toBare l = some (b, n) → n ≤ 1
  ready : ∀ b j name password l, Effect.send b (.login j name password) :: l <:+ log →
    ∃ u, (user u).jid.toBare = j ∧ (user u).readyForConnect = true ∧
      openLogins u j l = some (b, 0)

section Log

variable {u : UserId} {j : Jid} {b : BackendId} {n : Nat} {e : Effect} {l l' : List Effect}
  {user user' : UserId → User}

theorem openLogins_mum (he : e.Mum) : openLogins u j (e :: l) = openLogins u j l := by
  cases e with
  | send b m =>
    cases m with
    | login => cases he
    | logout => cases he
    | _ => rfl
  | assign => cases he
  | _ => rfl

theorem openLogins_mums (hl : ∀ e ∈ l', e.Mum) : openLogins u j (l' ++ l) = openLogins u j l := by
  induction l' with
  | nil => rfl
  | cons e l' ih =>
    rw [List.cons_append, openLogins_mum (hl e List.mem_cons_self)]
    exact ih fun e' he' => hl e' (List.mem_cons_of_mem e he')

theorem openLogins_assign (how : Assignment) (v : UserId) (state : Backend) :
    openLogins u j (.assign how v b state :: l) = if v = u then some (b, 0) else openLogins u j l :=
  rfl

/-- A LOGIN for another JID or to another backend does not count. -/
theorem openLogins_login_of_ne {i : Jid} {name password : String}
    (h : ∀ n, openLogins u j l = some (b, n) → i ≠ j) :
    openLogins u j (.send b (.login i name password) :: l) = openLogins u j l := by
  rw [openLogins]
  cases ho : openLogins u j l with
  | none => rfl
  | some o =>
    obtain ⟨c, n⟩ := o
    have hne : ¬ (i = j ∧ b = c) := by
      rintro ⟨hij, rfl⟩
      exact h n ho hij
    simp [hne]

theorem openLogins_login {name password : String} (h : openLogins u j l = some (b, n)) :
    openLogins u j (.send b (.login j name password) :: l) = some (b, n + 1) := by
  rw [openLogins, h]
  simp

theorem openLogins_logout_of_ne {i : Jid} {name : String}
    (h : ∀ n, openLogins u j l = some (b, n) → i ≠ j) :
    openLogins u j (.send b (.logout i name) :: l) = openLogins u j l := by
  rw [openLogins]
  cases ho : openLogins u j l with
  | none => rfl
  | some o =>
    obtain ⟨c, n⟩ := o
    have hne : ¬ (i = j ∧ b = c) := by
      rintro ⟨hij, rfl⟩
      exact h n ho hij
    simp [Option.filter, hne]

/-- What is open after a LOGOUT was open before and at another backend. -/
theorem openLogins_logout {name : String} {c : BackendId}
    (h : openLogins u j (.send c (.logout j name) :: l) = some (b, n)) :
    openLogins u j l = some (b, n) ∧ b ≠ c := by
  rw [openLogins] at h
  obtain ⟨ho, hne⟩ := Option.filter_eq_some_iff.mp h
  refine ⟨ho, ?_⟩
  rintro rfl
  simp at hne

/-- An open assignment is in the log. -/
theorem mem_of_openLogins (h : openLogins u j l = some (b, n)) :
    ∃ how state, Effect.assign how u b state ∈ l := by
  induction l generalizing n with
  | nil => cases h
  | cons e l ih =>
    have hkeep : ∀ {m}, openLogins u j l = some (b, m) →
        ∃ how state, Effect.assign how u b state ∈ e :: l := by
      intro m hm
      obtain ⟨how, state, hmem⟩ := ih hm
      exact ⟨how, state, List.mem_cons_of_mem e hmem⟩
    cases e with
    | assign how v c state =>
      rw [openLogins_assign] at h
      split at h
      · rename_i hv
        cases h
        exact ⟨how, state, by rw [hv]; exact List.mem_cons_self⟩
      · exact hkeep h
    | send c m =>
      cases m with
      | login i name password =>
        rw [openLogins, Option.map_eq_some_iff] at h
        obtain ⟨⟨c', m⟩, ho, heq⟩ := h
        have hc : c' = b := by
          split at heq
          · exact congrArg Prod.fst heq
          · exact congrArg Prod.fst heq
        exact hkeep (hc ▸ ho)
      | logout i name =>
        rw [openLogins] at h
        exact hkeep (Option.filter_eq_some_iff.mp h).1
      | _ => exact hkeep h
    | _ => exact hkeep h

namespace LoginsInOrder

theorem nil : LoginsInOrder user [] := by
  refine ⟨fun l hl u b n ho => ?_, fun b j name password l hl => ?_⟩
  · rw [List.suffix_nil.mp hl] at ho
    cases ho
  · cases List.suffix_nil.mp hl

theorem cons (h : LoginsInOrder user l)
    (honce : ∀ u b n, openLogins u (user u).jid.toBare (e :: l) = some (b, n) → n ≤ 1)
    (hready : ∀ b j name password, e = .send b (.login j name password) →
      ∃ u, (user u).jid.toBare = j ∧ (user u).readyForConnect = true ∧
        openLogins u j l = some (b, 0)) : LoginsInOrder user (e :: l) := by
  refine ⟨fun l' hl' u b n ho => ?_, fun b j name password l' hl' => ?_⟩
  · rcases List.suffix_cons_iff.mp hl' with rfl | hl'
    · exact honce u b n ho
    · exact h.once l' hl' u b n ho
  · rcases List.suffix_cons_iff.mp hl' with heq | hl'
    · cases heq
      exact hready b j name password rfl
    · exact h.ready b j name password l' hl'

theorem last (h : LoginsInOrder user l) (ho : openLogins u (user u).jid.toBare l = some (b, n)) :
    n ≤ 1 := h.once l List.suffix_rfl u b n ho

theorem mums (h : LoginsInOrder user l) (hl : ∀ e ∈ l', e.Mum) : LoginsInOrder user (l' ++ l) := by
  induction l' with
  | nil => exact h
  | cons e l' ih =>
    have htail := ih fun e' he' => hl e' (List.mem_cons_of_mem e he')
    have he := hl e List.mem_cons_self
    refine htail.cons (fun u b n ho => ?_) ?_
    · rw [← List.cons_append, openLogins_mums hl] at ho
      exact h.last ho
    · rintro b j name password rfl
      cases he

/-- Users keep their JIDs and stay ready; a user without an assignment may change. -/
theorem mono (h : LoginsInOrder user l)
    (hjid : ∀ u how b state, Effect.assign how u b state ∈ l → (user' u).jid = (user u).jid)
    (hready : ∀ u how b state, Effect.assign how u b state ∈ l →
      (user u).readyForConnect = true → (user' u).readyForConnect = true) :
    LoginsInOrder user' l := by
  refine ⟨fun l' hl' u b n ho => ?_, fun b j name password l' hl' => ?_⟩
  · obtain ⟨how, state, hmem⟩ := mem_of_openLogins ho
    rw [hjid u how b state (hl'.subset hmem)] at ho
    exact h.once l' hl' u b n ho
  · obtain ⟨u, hj, hu, ho⟩ := h.ready b j name password l' hl'
    obtain ⟨how, state, hmem⟩ := mem_of_openLogins ho
    have hmem' := hl'.subset (List.mem_cons_of_mem _ hmem)
    refine ⟨u, ?_, hready u how b state hmem' hu, ho⟩
    rw [hjid u how b state hmem']
    exact hj

end LoginsInOrder

end Log

end Spectrum
