import UrlShortener.Spec.Bootstrap
import Mathlib.Data.Set.Subsingleton

/-!
# One first administrator

`createFirstAdmin` asks for an active administrator and inserts one in two statements, and nothing but the `UNIQUE`
user name connects the two.

* `Exclusive`: what holds of the callers and the table between two statements. While there is no administrator,
  everyone who is about to insert has the same user name; the insert that succeeds takes this name, and every
  later one is refused.
* `first_admin_exclusive`: this is so as long as nobody asks while a caller with another user name is about to
  insert.
* `two_first_admins`: otherwise two calls succeed.
-/

namespace UrlShortener.Auth

open Calls BootstrapProg

/-! ## The two statements -/

namespace UserCredentialsRepository

theorem activeAdminExists_iff (db : AuthDb) :
    activeAdminExists db = true ↔ ∃ row ∈ db.users, row.controlSet = .admin ∧ row.isActive = 1 := by
  simp [activeAdminExists, Sql.count, List.countP_pos_iff]

/-- An insert that is not refused adds an active row under a user name that no row has. -/
theorem createUser_cases (env : AuthEnv) (username passwordHash : Str) (controlSet : ControlSet) (db : AuthDb) :
    createUser env username passwordHash controlSet db = (none, db) ∨
      ∃ user row,
        createUser env username passwordHash controlSet db = (some user, { db with users := db.users ++ [row] }) ∧
        row.username = username ∧ row.controlSet = controlSet ∧ row.isActive = 1 ∧
        ∀ r ∈ db.users, r.username ≠ username := by
  unfold createUser
  dsimp only
  split
  case h_1 => exact .inl rfl
  case h_2 users hinsert =>
    obtain ⟨rfl, hclash⟩ := Sql.insert_eq_some hinsert
    refine .inr ⟨_, _, rfl, rfl, rfl, rfl, fun r hr => ?_⟩
    have hr := hclash r hr
    simp only [UserRow.clash, Bool.or_eq_false_iff, beq_eq_false_iff_ne] at hr
    exact hr.2.symm

end UserCredentialsRepository

/-! ## Callers -/

/-- Concurrent calls of `createFirstAdmin`. -/
abbrev BootstrapPool (ι : Type) :=
  Pool UserStatement UserStatement.Answer (fun _ : ι => Except BootstrapError UserCredentials) AuthDb

section

variable {ι : Type} (hashPassword : Str → Str) (calls : ι → FirstAdminCall)

/-- The callers that were told that they are the first administrator. -/
def Succeeded (P : BootstrapPool ι) : Set ι := {i | ∃ user, P.prog i = .ret (.ok user)}

/-- Whoever is about to insert while `i` asks for an administrator has `i`'s user name. -/
def SameName (i : ι) (P : BootstrapPool ι) : Prop :=
  P.next i = some .activeAdminExists →
    ∀ j env username passwordHash controlSet,
      P.next j = some (.createUser env username passwordHash controlSet) → username = (calls i).username

/-- The caller has been told that there is no administrator and is about to insert. -/
def Waiting (P : BootstrapPool ι) (i : ι) : Prop := P.prog i = insertAdmin hashPassword (calls i)

/-- Between two statements: where each caller is, and who can still succeed. -/
structure Exclusive (P : BootstrapPool ι) : Prop where
  place : ∀ i, P.prog i = createFirstAdmin hashPassword (calls i) ∨ Waiting hashPassword calls P i ∨
    ∃ result, P.prog i = .ret result
  vacant : UserCredentialsRepository.activeAdminExists P.state = false → Succeeded P = ∅ ∧
    ∀ i j, Waiting hashPassword calls P i → Waiting hashPassword calls P j → (calls i).username = (calls j).username
  taken : UserCredentialsRepository.activeAdminExists P.state = true → (Succeeded P).Subsingleton ∧
    ∀ i, Waiting hashPassword calls P i → ∃ row ∈ P.state.users, row.username = (calls i).username

variable {hashPassword calls} {P : BootstrapPool ι} {i j : ι}

theorem createFirstAdmin_eq (c : FirstAdminCall) :
    createFirstAdmin hashPassword c = .call .activeAdminExists fun found : Bool =>
      if found then .ret (.error .adminAlreadyExists) else insertAdmin hashPassword c := rfl

theorem insertAdmin_eq (c : FirstAdminCall) :
    insertAdmin hashPassword c =
      .call (.createUser c.env c.username (hashPassword c.plainPassword) .admin)
        fun user : Option UserCredentials => .ret (user.elim (.error .insertFailed) .ok) := by
  refine congrArg (Prog.call _) (funext fun user : Option UserCredentials => ?_)
  cases user <;> rfl

theorem Waiting.next (h : Waiting hashPassword calls P i) :
    P.next i = some (.createUser (calls i).env (calls i).username (hashPassword (calls i).plainPassword) .admin) := by
  unfold Waiting at h
  rw [Pool.next, h]
  rfl

theorem next_createFirstAdmin (h : P.prog i = createFirstAdmin hashPassword (calls i)) :
    P.next i = some .activeAdminExists := by
  rw [Pool.next, h]
  rfl

theorem exclusive_bootstrapPool (db : AuthDb) : Exclusive hashPassword calls (bootstrapPool hashPassword calls db) := by
  have hwait : ∀ i, ¬ Waiting hashPassword calls (bootstrapPool hashPassword calls db) i := by
    intro i h
    have hnext := (next_createFirstAdmin (P := bootstrapPool hashPassword calls db) (i := i) rfl).symm.trans h.next
    cases hnext
  have hempty : Succeeded (bootstrapPool hashPassword calls db) = ∅ := by
    refine Set.eq_empty_of_forall_notMem fun i hi => ?_
    obtain ⟨user, huser⟩ := hi
    cases huser
  refine ⟨fun i => .inl rfl, fun _ => ⟨hempty, fun i _ hi => absurd hi (hwait i)⟩, fun _ => ⟨?_, fun i hi => ?_⟩⟩
  · rw [hempty]
    exact Set.subsingleton_empty
  · exact absurd hi (hwait i)

theorem Exclusive.subsingleton (h : Exclusive hashPassword calls P) : (Succeeded P).Subsingleton := by
  cases hadmin : UserCredentialsRepository.activeAdminExists P.state
  case false =>
    rw [(h.vacant hadmin).1]
    exact Set.subsingleton_empty
  case true => exact (h.taken hadmin).1

/-! ## One statement -/

variable [DecidableEq ι]

section

variable {result : Except BootstrapError UserCredentials} {db : AuthDb}

theorem waiting_of_goTo_ret (h : Waiting hashPassword calls (P.goTo i (.ret result) db) j) :
    Waiting hashPassword calls P j := by
  unfold Waiting at h
  by_cases hj : j = i
  · subst hj
    rw [Pool.goTo_prog_self] at h
    cases h
  · rw [Pool.goTo_prog_other P _ _ hj] at h
    exact h

/-- A caller that gets its answer is at a place of its program. -/
theorem Exclusive.place_goTo (h : Exclusive hashPassword calls P)
    {p : BootstrapProg (Except BootstrapError UserCredentials)}
    (hp : p = insertAdmin hashPassword (calls i) ∨ ∃ result, p = .ret result) (db : AuthDb) (j : ι) :
    (P.goTo i p db).prog j = createFirstAdmin hashPassword (calls j) ∨
      Waiting hashPassword calls (P.goTo i p db) j ∨ ∃ result, (P.goTo i p db).prog j = .ret result := by
  unfold Waiting
  by_cases hj : j = i
  · subst hj
    rw [Pool.goTo_prog_self]
    exact .inr hp
  · rw [Pool.goTo_prog_other P _ _ hj]
    exact h.place j

theorem mem_succeeded_goTo_of_ne {p : BootstrapProg (Except BootstrapError UserCredentials)} (hj : j ≠ i) :
    j ∈ Succeeded (P.goTo i p db) ↔ j ∈ Succeeded P := by
  have hprog := Pool.goTo_prog_other P p db hj
  simp [Succeeded, hprog]

theorem succeeded_goTo_subset {p : BootstrapProg (Except BootstrapError UserCredentials)}
    (hp : ∀ user, p ≠ .ret (.ok user)) : Succeeded (P.goTo i p db) ⊆ Succeeded P := by
  intro j hj
  by_cases hji : j = i
  · subst hji
    obtain ⟨user, huser⟩ := hj
    rw [Pool.goTo_prog_self] at huser
    exact absurd huser (hp user)
  · exact (mem_succeeded_goTo_of_ne hji).1 hj

/-- A caller that is turned away changes nothing for the others. -/
theorem Exclusive.error (h : Exclusive hashPassword calls P) (e : BootstrapError) :
    Exclusive hashPassword calls (P.goTo i (.ret (.error e)) P.state) := by
  have hsub : Succeeded (P.goTo i (.ret (.error e)) P.state) ⊆ Succeeded P :=
    succeeded_goTo_subset fun user huser => by cases huser
  refine ⟨h.place_goTo (.inr ⟨_, rfl⟩) _, fun hnone => ?_, fun hsome => ?_⟩
  · obtain ⟨hempty, hname⟩ := h.vacant hnone
    refine ⟨Set.subset_empty_iff.1 (hempty ▸ hsub), fun j j' hj hj' => ?_⟩
    exact hname j j' (waiting_of_goTo_ret hj) (waiting_of_goTo_ret hj')
  · obtain ⟨hone, hname⟩ := h.taken hsome
    exact ⟨hone.anti hsub, fun j hj => hname j (waiting_of_goTo_ret hj)⟩

/-- A caller that finds no administrator waits with those of its name. -/
theorem Exclusive.wait (h : Exclusive hashPassword calls P)
    (hnone : UserCredentialsRepository.activeAdminExists P.state = false)
    (hsame : ∀ j, Waiting hashPassword calls P j → (calls j).username = (calls i).username) :
    Exclusive hashPassword calls (P.goTo i (insertAdmin hashPassword (calls i)) P.state) := by
  have hsub : Succeeded (P.goTo i (insertAdmin hashPassword (calls i)) P.state) ⊆ Succeeded P :=
    succeeded_goTo_subset fun user huser => by cases huser
  have hname : ∀ j, Waiting hashPassword calls (P.goTo i (insertAdmin hashPassword (calls i)) P.state) j →
      (calls j).username = (calls i).username := by
    intro j hj
    by_cases hji : j = i
    · rw [hji]
    · rw [Waiting, Pool.goTo_prog_other P _ _ hji] at hj
      exact hsame j hj
  refine ⟨h.place_goTo (.inl rfl) _, fun _ => ?_, fun hsome => ?_⟩
  · refine ⟨Set.subset_empty_iff.1 ((h.vacant hnone).1 ▸ hsub), fun j j' hj hj' => ?_⟩
    exact (hname j hj).trans (hname j' hj').symm
  · cases hnone.symm.trans hsome

/-- The insert that succeeds: it is the first one, and it takes the name of all who wait. -/
theorem Exclusive.ok (h : Exclusive hashPassword calls P) (hi : Waiting hashPassword calls P i)
    {row : UserRow} (hname : row.username = (calls i).username) (hrow : row.controlSet = .admin ∧ row.isActive = 1)
    (hfresh : ∀ r ∈ P.state.users, r.username ≠ (calls i).username) (user : UserCredentials) :
    Exclusive hashPassword calls
      (P.goTo i (.ret (.ok user)) { P.state with users := P.state.users ++ [row] }) := by
  -- an administrator of before would have taken the name
  have hnone : UserCredentialsRepository.activeAdminExists P.state = false := by
    by_contra hsome
    obtain ⟨r, hr, hri⟩ := (h.taken (Bool.eq_true_of_not_eq_false hsome)).2 i hi
    exact hfresh r hr hri
  obtain ⟨hempty, hsame⟩ := h.vacant hnone
  have hmem : row ∈ P.state.users ++ [row] := by simp
  refine ⟨h.place_goTo (.inr ⟨_, rfl⟩) _, fun hno => ?_, fun _ => ⟨?_, fun j hj => ?_⟩⟩
  · have hsome := (UserCredentialsRepository.activeAdminExists_iff
      { P.state with users := P.state.users ++ [row] }).2 ⟨row, hmem, hrow⟩
    cases hno.symm.trans hsome
  · -- nobody but `i`
    have honly : ∀ j ∈ Succeeded (P.goTo i (.ret (.ok user)) { P.state with users := P.state.users ++ [row] }),
        j = i := by
      intro j hj
      by_contra hji
      have := (mem_succeeded_goTo_of_ne hji).1 hj
      rw [hempty] at this
      exact this
    intro j hj j' hj'
    rw [honly j hj, honly j' hj']
  · exact ⟨row, hmem, hname.trans (hsame i j hi (waiting_of_goTo_ret hj))⟩

end

/-- **One statement of any caller.** -/
theorem Exclusive.advance (h : Exclusive hashPassword calls P) (hsame : SameName calls i P) :
    Exclusive hashPassword calls (P.advance UserStatement.handle i) := by
  rcases h.place i with hstart | hwait | ⟨result, hret⟩
  · -- it asks for an administrator
    cases hadmin : UserCredentialsRepository.activeAdminExists P.state
    case false =>
      have hP : P.advance UserStatement.handle i = P.goTo i (insertAdmin hashPassword (calls i)) P.state := by
        rw [Pool.advance_call (hstart.trans (createFirstAdmin_eq _))]
        simp [UserStatement.handle, hadmin]
      rw [hP]
      exact h.wait hadmin fun j hj => hsame (next_createFirstAdmin hstart) j _ _ _ _ hj.next
    case true =>
      have hP : P.advance UserStatement.handle i = P.goTo i (.ret (.error .adminAlreadyExists)) P.state := by
        rw [Pool.advance_call (hstart.trans (createFirstAdmin_eq _))]
        simp [UserStatement.handle, hadmin]
      rw [hP]
      exact h.error _
  · -- it inserts, and is refused when its name is taken
    rcases UserCredentialsRepository.createUser_cases (calls i).env (calls i).username
        (hashPassword (calls i).plainPassword) .admin P.state with
      hnone | ⟨user, row, hsome, hname, hset, hactive, hfresh⟩
    · have hP : P.advance UserStatement.handle i = P.goTo i (.ret (.error .insertFailed)) P.state := by
        rw [Pool.advance_call (hwait.trans (insertAdmin_eq _))]
        simp [UserStatement.handle, hnone]
      rw [hP]
      exact h.error _
    · have hP : P.advance UserStatement.handle i =
          P.goTo i (.ret (.ok user)) { P.state with users := P.state.users ++ [row] } := by
        rw [Pool.advance_call (hwait.trans (insertAdmin_eq _))]
        simp [UserStatement.handle, hsome]
      rw [hP]
      exact h.ok hwait hname ⟨hset, hactive⟩ hfresh user
  · rw [Pool.advance_ret hret]
    exact h

end

/-! ## Every interleaving -/

/-- **The first administrator is created once.** In every interleaving in which nobody asks for an administrator
while a caller with another user name is about to insert, at most one of any number of calls succeeds. -/
theorem first_admin_exclusive {ι : Type} [DecidableEq ι] (hashPassword : Str → Str) (calls : ι → FirstAdminCall)
    (db : AuthDb) (schedule : List ι)
    (hsame : Runs.Meets (Pool.advance UserStatement.handle) (SameName calls)
      (bootstrapPool hashPassword calls db) schedule) :
    (Succeeded ((bootstrapPool hashPassword calls db).interleave UserStatement.handle schedule)).Subsingleton := by
  have hrun : Exclusive hashPassword calls
      ((bootstrapPool hashPassword calls db).interleave UserStatement.handle schedule) :=
    Runs.after_invariant_meets (fun i P hP hi => hP.advance hi) (exclusive_bootstrapPool db) hsame
  exact hrun.subsingleton

/-- A call at time zero. -/
def firstAdminCall (username : String) : FirstAdminCall :=
  ⟨⟨fun _ => 0, username.toList, []⟩, username.toList, "secret"⟩

/-- Two first admins at once. -/
def aliceAndBob (alice : Bool) : FirstAdminCall := firstAdminCall (if alice then "alice" else "bob")

/-- Two calls with one user name: both ask before either inserts, and the row of the second one is refused. -/
theorem first_admin_exclusive_sample :
    let P := (bootstrapPool id (fun _ : Bool => firstAdminCall "alice") {}).interleave UserStatement.handle
      [true, false, true, false]
    P.Returned ∧ P.state.users.length = 1 ∧ (Succeeded P).Subsingleton := by
  refine ⟨by rintro (_ | _) <;> rfl, rfl, ?_⟩
  refine first_admin_exclusive id _ {} [true, false, true, false] ⟨?_, ?_, ?_, ?_, trivial⟩
  · rintro - (_ | _) env username passwordHash controlSet hnext <;> cases hnext
  · rintro - (_ | _) env username passwordHash controlSet hnext <;> cases hnext
    rfl
  · rintro ⟨⟩
  · rintro ⟨⟩

/-- **Two first administrators.** Both calls ask before either inserts. -/
theorem two_first_admins :
    UserCredentialsRepository.activeAdminExists {} = false ∧
      ¬ (Succeeded ((bootstrapPool id aliceAndBob {}).interleave UserStatement.handle
        [true, false, true, false])).Subsingleton := by
  refine ⟨rfl, fun h => ?_⟩
  have hboth : true = false := h ⟨_, rfl⟩ ⟨_, rfl⟩
  cases hboth

end UrlShortener.Auth
