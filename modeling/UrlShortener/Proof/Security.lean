import UrlShortener.Spec.Security
import UrlShortener.Proof.Sessions
import UrlShortener.Calls.Effects
import UrlShortener.Sql.Growth

/-!
# Single statements of the security services

* `Statement.Does`, `handle_does`: what a statement can do.
* `handle_possible`: which exceptions a statement throws.
* `handle_sessions`, `handle_users`: what a statement does to the two tables. No row is ever deleted, a revocation is
  never taken back and no user is activated again.
* `confined_run`: the rule for one statement of a program.
-/

namespace UrlShortener.Auth

open Sql Calls

variable {fate : ℕ → Fate} {db : SecurityDb}

/-! ## One statement -/

/-- A statement is executed, or it throws and leaves the tables as they are. -/
theorem handle_cases (fate : ℕ → Fate) (c : Statement) (db : SecurityDb) :
    c.handle fate db = (.error (.thrown c), { db with calls := db.calls + 1 }) ∨
      c.handle fate db = c.execute (fate db.calls) { db with calls := db.calls + 1 } := by
  by_cases h : (c.mayThrow && (fate db.calls).throws) = true
  · exact .inl (if_pos h)
  · exact .inr (if_neg h)

/-- The statement is no `INSERT`. -/
def Statement.keepsRows : Statement → Bool
  | createUser _ _ _ => false
  | createSession _ _ _ _ => false
  | append _ => false
  | _ => true

/-- **What a statement can do**: it throws and leaves the tables as they are, it inserts its row, or it is one that
never inserts. -/
inductive Statement.Does (f : Fate) (db : SecurityDb) : (c : Statement) → c.Answer × SecurityDb → Prop
  | throws (c : Statement) : c.Does f db (.error (.thrown c), db)
  | createUser {username passwordHash : Str} {controlSet : ControlSet} (user : UserCredentials) {row : UserRow}
      {users : Table UserRow} (hinsert : insert UserRow.clash row db.auth.users = some users) :
      (createUser username passwordHash controlSet).Does f db (.ok user, { db with auth := { db.auth with users } })
  | createSession {userId tokenHash : Str} {expiresAt : TimePoint} {clientId : Option Str} (session : AuthSession)
      {row : SessionRow} {sessions : Table SessionRow}
      (hinsert : insert SessionRow.clash row db.auth.sessions = some sessions) :
      (createSession userId tokenHash expiresAt clientId).Does f db
        (.ok session, { db with auth := { db.auth with sessions } })
  | append {entry : AuditEntry} {row : AuditRow} {auditLog : Table AuditRow}
      (hinsert : insert AuditRow.clash row db.auditLog = some auditLog) (haction : row.action = entry.action)
      (hresult : row.result = entry.result) : (append entry).Does f db (.ok (), { db with auditLog })
  | keeps (c : Statement) (hkeeps : c.keepsRows = true) : c.Does f db (c.execute f db)

theorem execute_does (f : Fate) (c : Statement) (db : SecurityDb) : c.Does f db (c.execute f db) := by
  cases c with
  | createUser username passwordHash controlSet =>
    simp only [Statement.execute, UserCredentialsRepository.createUser]
    split
    · next heq =>
      split at heq
      · cases heq
      · next users hinsert =>
        obtain ⟨-, rfl⟩ := Prod.mk.inj heq
        exact .createUser _ hinsert
    · exact .throws _
  | createSession userId tokenHash expiresAt clientId =>
    simp only [Statement.execute, AuthSessionRepository.createSession]
    split
    · next heq =>
      split at heq
      · cases heq
      · next sessions hinsert =>
        obtain ⟨-, rfl⟩ := Prod.mk.inj (Option.some.inj heq)
        exact .createSession _ hinsert
    · exact .throws _
  | append entry =>
    simp only [Statement.execute]
    split
    · next auditLog hinsert => exact .append hinsert rfl rfl
    · exact .throws _
  | _ => exact .keeps _ rfl

/-- Every statement does one of these. -/
theorem handle_does (fate : ℕ → Fate) (c : Statement) (db : SecurityDb) :
    c.Does (fate db.calls) { db with calls := db.calls + 1 } (c.handle fate db) := by
  rcases handle_cases fate c db with h | h <;> rw [h]
  · exact .throws c
  · exact execute_does _ c _

/-- An exception is the one of the statement itself. -/
def Statement.Possible (c : Statement) (x : c.Answer) : Prop := ∀ e, x = .error e → e = .thrown c

theorem handle_possible (fate : ℕ → Fate) (c : Statement) (db : SecurityDb) :
    c.Possible (c.handle fate db).1 := by
  intro e he
  have hdoes := handle_does fate c db
  generalize c.handle fate db = r at he hdoes
  cases hdoes with
  | throws => exact (Except.error.inj he).symm
  | createUser | createSession | append => cases he
  | keeps _ hkeeps =>
    cases c with
    | createUser | createSession | append => cases hkeeps
    | _ => cases he

/-! ## The tables -/

/-- The session stays with its user, and a revocation is not taken back. -/
def StaysRevoked (row row' : SessionRow) : Prop :=
  row'.userId = row.userId ∧ (row.revokedAt.isSome = true → row'.revokedAt.isSome = true)

/-- No user is activated again. -/
def StaysInactive (row row' : UserRow) : Prop := row'.isActive = 1 → row.isActive = 1

/-- **What a statement does to the sessions.** -/
theorem handle_sessions (fate : ℕ → Fate) (c : Statement) (db : SecurityDb) :
    Grows SessionRow.tokenHash StaysRevoked db.auth.sessions (c.handle fate db).2.auth.sessions := by
  have hrefl : ∀ row, StaysRevoked row row := fun row => ⟨rfl, fun h => h⟩
  have hdoes := handle_does fate c db
  generalize c.handle fate db = r at hdoes ⊢
  cases hdoes with
  | throws | createUser | append => exact .refl hrefl _
  | createSession session hinsert =>
    refine grows_insert hrefl (fun row hclash => ?_) hinsert
    simp only [SessionRow.clash, Bool.or_eq_false_iff, beq_eq_false_iff_ne] at hclash
    exact hclash.2.symm
  | keeps _ hkeeps =>
    cases c with
    | createUser | createSession | append => cases hkeeps
    | touchLastUsed id time =>
      refine grows_update hrefl ?_ _
      exact fun row => ⟨rfl, rfl, fun h => h⟩
    | revokeByTokenHash tokenHash =>
      refine grows_update hrefl ?_ _
      exact fun row => ⟨rfl, rfl, fun _ => rfl⟩
    | revokeAllForUser userId =>
      refine grows_update hrefl ?_ _
      exact fun row => ⟨rfl, rfl, fun _ => rfl⟩
    | _ => exact .refl hrefl _

/-- **What a statement does to the users.** -/
theorem handle_users (fate : ℕ → Fate) (c : Statement) (db : SecurityDb) :
    Grows UserRow.username StaysInactive db.auth.users (c.handle fate db).2.auth.users := by
  have hrefl : ∀ row, StaysInactive row row := fun row h => h
  have hdoes := handle_does fate c db
  generalize c.handle fate db = r at hdoes ⊢
  cases hdoes with
  | throws | createSession | append => exact .refl hrefl _
  | createUser user hinsert =>
    refine grows_insert hrefl (fun row hclash => ?_) hinsert
    simp only [UserRow.clash, Bool.or_eq_false_iff, beq_eq_false_iff_ne] at hclash
    exact hclash.2.symm
  | keeps _ hkeeps =>
    cases c with
    | createUser | createSession | append => cases hkeeps
    | deactivateUser username =>
      refine grows_update hrefl ?_ _
      exact fun row => ⟨rfl, fun h => absurd (show (0 : Int) = 1 from h) (by decide)⟩
    | touchLastLogin userId =>
      refine grows_update hrefl ?_ _
      exact fun row => ⟨rfl, fun h => h⟩
    | _ => exact .refl hrefl _

/-! ## Programs -/

/-- One statement, whatever its fate. -/
theorem confined_run {allowed : Statement → Prop} {possible : (c : Statement) → c.Answer → Prop} {c : Statement}
    {Q : c.Value → Prop} {E : SecurityError → Prop} (hallowed : allowed c)
    (hok : ∀ a, possible c (.ok a) → Q a) (herror : ∀ e, possible c (.error e) → E e) :
    ConfinedE allowed possible Q E (Security.run c) := by
  refine ⟨hallowed, fun x hx => ?_⟩
  cases x with
  | ok a => exact hok a hx
  | error e => exact herror e hx

end UrlShortener.Auth
