import UrlShortener.Proof.Security

/-!
# Signing out is final

Callers take turns on one database, one statement at a time, and any statement may throw.

* `revocation_final`: once a revocation of a token has returned that has found the session of the token, no
  introspection of the token that begins later reports it active.
* `deactivation_final`: once the deactivation of a user has returned that has found the user, no call that begins later
  lets the user in.

Both rest on what no statement takes back (`handle_sessions`, `handle_users`); a call that is under way is another
matter, since it may have read the row before.
-/

namespace UrlShortener.Auth

open Sql Calls Security

variable {ι : Type} [DecidableEq ι] {crypto : SecurityCrypto} {sessionLifetime : Int64} {db : SecurityDb}

/-- Every statement is allowed. -/
abbrev anyCall : Statement → Prop := fun _ => True

/-- Any exception may end the program. -/
abbrev anyError : SecurityError → Prop := fun _ => True

theorem confinedE_true {α : Type} {possible : (c : Statement) → c.Answer → Prop} (p : Security α) :
    ConfinedE anyCall possible (fun _ => True) anyError p :=
  (Prog.confined_true (α := Except SecurityError α) p).mono fun r _ => by cases r <;> trivial

/-- A statement whose answers satisfy `Q` if they are possible. -/
theorem confined_any {possible : (c : Statement) → c.Answer → Prop} {c : Statement} {Q : c.Value → Prop}
    (h : ∀ a, possible c (.ok a) → Q a) : ConfinedE anyCall possible Q anyError (Security.run c) :=
  confined_run trivial h fun _ _ => trivial

/-! ## Revoked tokens -/

/-- The session of the token is revoked. -/
def Revoked (tokenHash : Str) (db : SecurityDb) : Prop :=
  RowIs SessionRow.tokenHash tokenHash (fun row => row.revokedAt.isSome = true) db.auth.sessions

/-- A query for the token finds a revoked session, if any. -/
def FindsRevoked (tokenHash : Str) : (c : Statement) → c.Answer → Prop
  | .selectSession h, x => h = tokenHash → ∀ session, x = .ok (some session) → session.revokedAt.isSome = true
  | _, _ => True

theorem Revoked.handle (fate : ℕ → Fate) (c : Statement) {tokenHash : Str} (h : Revoked tokenHash db) :
    Revoked tokenHash (c.handle fate db).2 :=
  RowIs.grows h (handle_sessions fate c db) fun _ _ hkeeps => hkeeps.2

theorem Revoked.finds (fate : ℕ → Fate) (c : Statement) {tokenHash : Str} (h : Revoked tokenHash db) :
    FindsRevoked tokenHash c (c.handle fate db).1 := by
  cases c with
  | selectSession hash =>
    rintro rfl session hsession
    rcases handle_cases fate (.selectSession hash) db with hc | hc <;> rw [hc] at hsession
    · cases hsession
    · obtain ⟨row, hfirst, rfl⟩ := Option.map_eq_some_iff.1 (Except.ok.inj hsession)
      have hrevoked := RowIs.of_first h (fun row hrow => eq_of_beq hrow) hfirst
      simpa [AuthSessionRepository.fromRow] using hrevoked
  | _ => trivial

theorem not_isActive {session : AuthSession} (h : session.revokedAt.isSome = true) (now : TimePoint) :
    session.isActive now = false := if_pos h

theorem confined_refuse {possible : (c : Statement) → c.Answer → Prop} {Q : IntrospectResult → Prop}
    (h : Q ⟨false, none, none⟩) : ConfinedE anyCall possible Q anyError Broker.refuse :=
  (confinedE_true _).bind fun _ _ => confinedE_pure h

/-- The session that `findByTokenHash` returns is revoked. -/
theorem findByTokenHash_revoked (tokenHash : Str) :
    ConfinedE anyCall (FindsRevoked tokenHash) (fun found => ∀ session, found = some session →
      session.revokedAt.isSome = true) anyError (findByTokenHash tokenHash) := by
  refine ConfinedE.bind (Q := fun found : Option AuthSession => ∀ session, found = some session →
    session.revokedAt.isSome = true) (confined_any fun found h session hs => ?_) fun found hfound => ?_
  · exact h rfl session (congrArg _ hs)
  · cases found with
    | none => exact confinedE_pure nofun
    | some session =>
      have hrevoked := hfound session rfl
      refine (confinedE_true _).bind fun now _ => ?_
      simp only [not_isActive hrevoked now]
      exact confinedE_pure fun _ hs => Option.some.inj hs ▸ hrevoked

theorem introspectToken_revoked (crypto : SecurityCrypto) (rawToken : Str) :
    ConfinedE anyCall (FindsRevoked (crypto.hashToken rawToken)) (fun r => r.active = false) anyError
      (Broker.introspectToken crypto rawToken) := by
  refine (findByTokenHash_revoked _).bind fun found hfound => ?_
  cases found with
  | none => exact confined_refuse rfl
  | some session =>
    refine (confinedE_true _).bind fun now _ => ?_
    simp only [not_isActive (hfound session rfl) now]
    exact confined_refuse rfl

/-- The calls of one owner that end the session of a token. -/
def SecurityOp.Revokes (op : SecurityOp) (token owner : Str) : Prop :=
  op = .revokeToken token ∨ op = .revokeAllForUser owner

/-- A call that revokes the session does so with its first statement, if that goes through. -/
theorem revokes_first {op : SecurityOp} {token owner : Str} (hop : op.Revokes token owner) (crypto : SecurityCrypto)
    (sessionLifetime : Int64) (fate : ℕ → Fate) :
    ∃ c k, op.program crypto sessionLifetime = .call c k ∧ ∀ db : SecurityDb,
      RowIs SessionRow.tokenHash (crypto.hashToken token) (fun row => row.userId = owner) db.auth.sessions →
      Revoked (crypto.hashToken token) (c.handle fate db).2 ∨
        ∃ r, k (c.handle fate db).1 = .ret r ∧ ∃ e, r = .error e := by
  rcases hop with rfl | rfl
  · refine ⟨.revokeByTokenHash (crypto.hashToken token), _, rfl, fun db hrow => ?_⟩
    rcases handle_cases fate (.revokeByTokenHash (crypto.hashToken token)) db with hc | hc <;> rw [hc]
    · exact .inr ⟨_, rfl, _, rfl⟩
    · left
      refine RowIs.update hrow ?_ ?_
      · exact fun row => rfl
      · intro row hhash _
        rw [if_pos (beq_iff_eq.2 hhash)]
        rfl
  · refine ⟨.revokeAllForUser owner, _, rfl, fun db hrow => ?_⟩
    rcases handle_cases fate (.revokeAllForUser owner) db with hc | hc <;> rw [hc]
    · exact .inr ⟨_, rfl, _, rfl⟩
    · left
      refine RowIs.update hrow ?_ ?_
      · exact fun row => rfl
      · intro row _ howner
        split
        · rfl
        -- a session of the owner that is left alone was revoked before
        · next hcond => simpa [howner, Option.isSome_iff_ne_none] using hcond

/-- A call that begins in a state where a fact holds that no statement takes away has a result that goes with it. -/
theorem result_of_fact {Fact : SecurityDb → Prop} {possible : (c : Statement) → c.Answer → Prop} {fate : ℕ → Fate}
    (hstable : ∀ c db, Fact db → Fact (Statement.handle fate c db).2)
    (hanswer : ∀ c db, Fact db → possible c (Statement.handle fate c db).1) {P : SecurityPool ι} (hfact : Fact P.state)
    {i : ι} {Q : SecurityResult → Prop} (hprog : ConfinedE anyCall possible Q anyError (P.prog i)) (later : List ι)
    {r : SecurityResult} (hr : (P.interleave (Statement.handle fate) later).prog i = .ret (.ok r)) : Q r := by
  have hall : ∀ j, (P.prog j).Confined anyCall possible (if j = i then Ends Q anyError else fun _ => True) := by
    intro j
    split
    · next h => exact h ▸ hprog
    · exact Prog.confined_true _
  have hi := (Pool.interleave_confined Fact (fun c db _ => hstable c db) hanswer hfact hall later).2 i
  rw [hr, if_pos rfl] at hi
  exact hi

/-- The callers after a schedule. -/
abbrev securityAfter (crypto : SecurityCrypto) (sessionLifetime : Int64) (ops : ι → SecurityOp) (fate : ℕ → Fate)
    (db : SecurityDb) (schedule : List ι) : SecurityPool ι :=
  (securityPool crypto sessionLifetime ops db).interleave (Statement.handle fate) schedule

/-- **What the first statement of a call that has returned establishes** lasts. -/
theorem fact_of_done {Fact : SecurityDb → Prop} {ops : ι → SecurityOp} {fate : ℕ → Fate} {j : ι}
    {before between : List ι}
    (hstable : ∀ c db, Fact db → Fact (Statement.handle fate c db).2) {c : Statement}
    {k : c.Answer → Prog Statement Statement.Answer (Except SecurityError SecurityResult)}
    (hprog : (ops j).program crypto sessionLifetime = .call c k) (hfirst : j ∉ before)
    (hcall : ∀ db', db' = (securityAfter crypto sessionLifetime ops fate db before).state →
      Fact (c.handle fate db').2 ∨ ∃ r, k (c.handle fate db').1 = .ret r ∧ ∃ e, r = .error e)
    (hdone : (securityAfter crypto sessionLifetime ops fate db (before ++ j :: between)).prog j = .ret (.ok .done)) :
    Fact (securityAfter crypto sessionLifetime ops fate db (before ++ j :: between)).state := by
  have hj : (securityAfter crypto sessionLifetime ops fate db before).prog j = .call c k := by
    rw [securityAfter, Pool.interleave_unscheduled hfirst]
    exact hprog
  rw [securityAfter, Pool.interleave, Runs.after_append] at hdone ⊢
  rcases Pool.interleave_established hstable hj (hcall _ rfl) between with hfact | ⟨r, hret, e, rfl⟩
  · exact hfact
  · cases hdone.symm.trans hret

/-- **Revocation is final.** Some caller has revoked the token, or all tokens of its owner, and the call has returned;
when its first statement ran, the session of the token was in the database. An introspection of the token that begins
after that is not told that it is active, whatever other callers do in between and whichever statements fail. -/
theorem revocation_final (crypto : SecurityCrypto) (sessionLifetime : Int64) (ops : ι → SecurityOp) (fate : ℕ → Fate)
    (db : SecurityDb) (token owner : Str) (hunique : Unique SessionRow.tokenHash db.auth.sessions) (i j : ι)
    (hj : (ops j).Revokes token owner) (hi : ops i = .introspectToken token) (before between later : List ι)
    (hfirst : j ∉ before)
    (hrow : ∃ row ∈ (securityAfter crypto sessionLifetime ops fate db before).state.auth.sessions,
      row.tokenHash = crypto.hashToken token ∧ row.userId = owner)
    (hdone : (securityAfter crypto sessionLifetime ops fate db (before ++ j :: between)).prog j = .ret (.ok .done))
    (hbegins : i ∉ before ++ j :: between) (r : IntrospectResult)
    (hr : (securityAfter crypto sessionLifetime ops fate db (before ++ j :: between ++ later)).prog i
      = .ret (.ok (.introspected r))) : r.active = false := by
  obtain ⟨c, k, hprog, hrevokes⟩ := revokes_first hj crypto sessionLifetime fate
  have hstart : RowIs SessionRow.tokenHash (crypto.hashToken token) (fun row => row.userId = owner)
      (securityAfter crypto sessionLifetime ops fate db before).state.auth.sessions :=
    ⟨Pool.interleave_fact (F := fun db => Unique SessionRow.tokenHash db.auth.sessions)
      (fun c db h => (handle_sessions fate c db).unique h) hunique before, hrow⟩
  -- the revocation has gone through
  have hrevoked : Revoked (crypto.hashToken token)
      (securityAfter crypto sessionLifetime ops fate db (before ++ j :: between)).state :=
    fact_of_done (fun c db h => Revoked.handle fate c h) hprog hfirst (fun db' hdb => hrevokes db' (hdb ▸ hstart)) hdone
  have hbegin : (securityAfter crypto sessionLifetime ops fate db (before ++ j :: between)).prog i
      = (SecurityOp.introspectToken token).program crypto sessionLifetime := by
    rw [securityAfter, Pool.interleave_unscheduled hbegins, ← hi]
    rfl
  rw [securityAfter, Pool.interleave, Runs.after_append] at hr
  refine result_of_fact (Q := fun result => ∀ r, result = .introspected r → r.active = false)
    (fun c db h => Revoked.handle fate c h) (fun c db h => Revoked.finds fate c h) hrevoked ?_ later hr r rfl
  refine hbegin ▸ (introspectToken_revoked crypto token).bind fun r' hr' => confinedE_pure ?_
  rintro r ⟨⟩
  exact hr'

/-- Hashes that are good enough for an example. -/
def sampleCrypto : SecurityCrypto where
  verifyPassword plainPassword passwordHash := plainPassword == passwordHash
  hashToken token := 'h' :: token
  hashWithSalt _ plainPassword := plainPassword

/-- Every row has an identifier of its own, and every statement goes through. -/
def sampleFate (n : ℕ) : Fate := { bytes := List.replicate n 'x' }

/-- A user with a session that has not expired. -/
def sampleSecurityDb : SecurityDb where
  auth :=
    { users := [⟨"1", "ann", "secret", .admin, 1, 0, 0, none⟩]
      sessions := [⟨"2", "1", none, "htoken", 0, 3600, none, none⟩] }

/-- A login, the revocation of all sessions of the user, and an introspection of the token of that login. -/
def sampleRevocation (i : Fin 3) : SecurityOp :=
  match i with
  | 0 => .createSession "ann" "secret" none
  | 1 => .revokeAllForUser "1"
  | 2 => .introspectToken "xxx"

/-- The session is opened in the run, and its login has not returned when it is revoked. -/
theorem sampleRevocation_final :
    ∃ r, (securityAfter sampleCrypto 3600 sampleRevocation sampleFate sampleSecurityDb
        ([0, 0, 0, 0, 0, 0] ++ 1 :: [0] ++ [2, 2, 2, 2])).prog 2 = .ret (.ok (.introspected r)) ∧ r.active = false :=
  ⟨_, rfl, revocation_final sampleCrypto 3600 sampleRevocation sampleFate sampleSecurityDb "xxx" "1"
    (List.nodup_singleton _) 2 1 (.inr rfl) rfl [0, 0, 0, 0, 0, 0] [0] [2, 2, 2, 2] (by decide)
    ⟨_, .tail _ (.head _), rfl, rfl⟩ rfl (by decide) _ rfl⟩

/-! ## Deactivated users -/

/-- The user of the name is not active. -/
def Deactivated (username : Str) (db : SecurityDb) : Prop :=
  RowIs UserRow.username username (fun row => row.isActive ≠ 1) db.auth.users

/-- A query for a user does not find the one of the name. -/
def Misses (username : Str) : (c : Statement) → c.Answer → Prop
  | .findByUsername _, x => ∀ user, x = .ok (some user) → user.username ≠ username
  | .findById _, x => ∀ user, x = .ok (some user) → user.username ≠ username
  | _, _ => True

theorem Deactivated.handle (fate : ℕ → Fate) (c : Statement) {username : Str} (h : Deactivated username db) :
    Deactivated username (c.handle fate db).2 :=
  RowIs.grows h (handle_users fate c db) fun _ _ hkeeps hinactive hactive => hinactive (hkeeps hactive)

/-- The rows that a query for active users finds have another name. -/
theorem Deactivated.first_ne {username : Str} (h : Deactivated username db) {cond : UserRow → Bool}
    (hactive : ∀ row, cond row = true → row.isActive = 1) {row : UserRow}
    (hfirst : first cond db.auth.users = some row) : row.username ≠ username := by
  obtain ⟨hunique, r, hr, hname, hinactive⟩ := h
  obtain ⟨hrow, hcond⟩ := first_eq_some hfirst
  intro heq
  rw [hunique.eq_of_column hrow hr (heq.trans hname.symm)] at hcond
  exact hinactive (hactive r hcond)

theorem Deactivated.misses (fate : ℕ → Fate) (c : Statement) {username : Str} (h : Deactivated username db) :
    Misses username c (c.handle fate db).1 := by
  cases c with
  | findByUsername name =>
    intro user huser
    rcases handle_cases fate (.findByUsername name) db with hc | hc <;> rw [hc] at huser
    · cases huser
    · obtain ⟨row, hfirst, rfl⟩ := Option.map_eq_some_iff.1 (Except.ok.inj huser)
      exact h.first_ne (fun row hrow => eq_of_beq (Bool.and_eq_true_iff.1 hrow).2) hfirst
  | findById userId =>
    intro user huser
    rcases handle_cases fate (.findById userId) db with hc | hc <;> rw [hc] at huser
    · cases huser
    · obtain ⟨row, hfirst, rfl⟩ := Option.map_eq_some_iff.1 (Except.ok.inj huser)
      exact h.first_ne (fun row hrow => eq_of_beq (Bool.and_eq_true_iff.1 hrow).2) hfirst
  | _ => trivial

/-- The user, if any, has another name. -/
def Other (username : Str) (user : Option UserCredentials) : Prop := ∀ u, user = some u → u.username ≠ username

/-- **The result lets nobody of the name in**: no password was accepted, no session opened and no token taken for
one of theirs. -/
def SecurityResult.Excludes (username : Str) : SecurityResult → Prop
  | .verified found => Other username found
  | .session result => Other username result.user
  | .introspected result => Other username result.user
  | _ => True

theorem verifyPassword_other (crypto : SecurityCrypto) (name plainPassword username : Str) :
    ConfinedE anyCall (Misses username) (Other username) anyError
      (Broker.verifyPassword crypto name plainPassword) := by
  refine ConfinedE.bind (Q := Other username) (confined_any fun found h u hu => h u (congrArg _ hu))
    fun found hfound => ?_
  have hfailure : ∀ entry, ConfinedE anyCall (Misses username) (Other username) anyError (do
      auditAppend entry
      return none) := fun entry => (confinedE_true _).bind fun _ _ => confinedE_pure nofun
  cases found with
  | none => exact hfailure _
  | some user =>
    dsimp only
    split
    · exact hfailure _
    · split
      · exact hfailure _
      · exact (confinedE_true _).bind fun _ _ => (confinedE_true _).bind fun _ _ => confinedE_pure hfound

theorem createSession_other (crypto : SecurityCrypto) (sessionLifetime : Int64) (name plainPassword username : Str)
    (clientId : Option Str) :
    ConfinedE anyCall (Misses username) (fun r => Other username r.user) anyError
      (Broker.createSession crypto sessionLifetime name plainPassword clientId) := by
  refine (verifyPassword_other crypto name plainPassword username).bind fun verified hverified => ?_
  cases verified with
  | none => exact (confinedE_true _).bind fun _ _ => confinedE_pure nofun
  | some user =>
    refine (confinedE_true _).bind fun _ _ => (confinedE_true _).bind fun _ _ => ?_
    exact (confinedE_true _).bind fun _ _ => (confinedE_true _).bind fun _ _ => confinedE_pure hverified

theorem acceptSession_other (session : AuthSession) (username : Str) :
    ConfinedE anyCall (Misses username) (fun r => Other username r.user) anyError (Broker.acceptSession session) := by
  refine ConfinedE.bind (Q := Other username) (confined_any fun found h u hu => h u (congrArg _ hu))
    fun found hfound => ?_
  cases found with
  | none => exact confined_refuse nofun
  | some user => exact (confinedE_true _).bind fun _ _ => confinedE_pure hfound

theorem introspectToken_other (crypto : SecurityCrypto) (rawToken username : Str) :
    ConfinedE anyCall (Misses username) (fun r => Other username r.user) anyError
      (Broker.introspectToken crypto rawToken) := by
  refine (confinedE_true _).bind fun found _ => ?_
  cases found with
  | none => exact confined_refuse nofun
  | some session =>
    refine (confinedE_true _).bind fun now _ => ?_
    split
    · exact confined_refuse nofun
    · exact acceptSession_other session username

/-- **Every call**, begun after the deactivation. -/
theorem program_excludes (crypto : SecurityCrypto) (sessionLifetime : Int64) (op : SecurityOp) (username : Str) :
    ConfinedE anyCall (Misses username) (SecurityResult.Excludes username) anyError
      (op.program crypto sessionLifetime) := by
  cases op with
  | verifyPassword name plainPassword =>
    exact (verifyPassword_other crypto name plainPassword username).bind fun _ h => confinedE_pure h
  | createSession name plainPassword clientId =>
    exact (createSession_other crypto sessionLifetime name plainPassword username clientId).bind fun _ h =>
      confinedE_pure h
  | introspectToken rawToken => exact (introspectToken_other crypto rawToken username).bind fun _ h => confinedE_pure h
  | revokeToken rawToken => exact (confinedE_true _).bind fun _ _ => confinedE_pure trivial
  | revokeAllForUser userId => exact (confinedE_true _).bind fun _ _ => confinedE_pure trivial
  | createUser guard name plainPassword controlSet =>
    exact (confinedE_true _).bind fun _ _ => confinedE_pure trivial
  | listUsers guard => exact (confinedE_true _).bind fun _ _ => confinedE_pure trivial
  | deactivateUser guard name => exact (confinedE_true _).bind fun _ _ => confinedE_pure trivial
  | createFirstAdmin name plainPassword => exact (confinedE_true _).bind fun _ _ => confinedE_pure trivial

/-- A deactivation takes effect with its first statement, if that goes through. -/
theorem deactivates_first (guard : ControlSet) (username : Str) (crypto : SecurityCrypto) (sessionLifetime : Int64)
    (fate : ℕ → Fate) :
    (∃ e, (SecurityOp.deactivateUser guard username).program crypto sessionLifetime = .ret (.error e)) ∨
    ∃ c k, (SecurityOp.deactivateUser guard username).program crypto sessionLifetime = .call c k ∧
      ∀ db : SecurityDb, RowIs UserRow.username username (fun _ => True) db.auth.users →
      Deactivated username (c.handle fate db).2 ∨ ∃ r, k (c.handle fate db).1 = .ret r ∧ ∃ e, r = .error e := by
  cases guard with
  | user => exact .inl ⟨_, rfl⟩
  | admin =>
    right
    refine ⟨.deactivateUser username, _, rfl, fun db hrow => ?_⟩
    rcases handle_cases fate (.deactivateUser username) db with hc | hc <;> rw [hc]
    · exact .inr ⟨_, rfl, _, rfl⟩
    · left
      refine RowIs.update hrow ?_ ?_
      · exact fun row => rfl
      · intro row hname _
        rw [if_pos (beq_iff_eq.2 hname)]
        exact fun h => absurd (show (0 : Int) = 1 from h) (by decide)

/-- **Deactivation is final.** An administrator has deactivated a user, and the call has returned; when its first
statement ran, the user was in the database. No call of any service that begins after that lets the user in: their
password is not accepted, no session is opened for them and no token is reported as theirs, whatever other callers do
and whichever statements fail. -/
theorem deactivation_final (crypto : SecurityCrypto) (sessionLifetime : Int64) (ops : ι → SecurityOp) (fate : ℕ → Fate)
    (db : SecurityDb) (username : Str) (hunique : Unique UserRow.username db.auth.users) (i j : ι) (guard : ControlSet)
    (hj : ops j = .deactivateUser guard username) (before between later : List ι) (hfirst : j ∉ before)
    (hrow : ∃ row ∈ (securityAfter crypto sessionLifetime ops fate db before).state.auth.users, row.username = username)
    (hdone : (securityAfter crypto sessionLifetime ops fate db (before ++ j :: between)).prog j = .ret (.ok .done))
    (hbegins : i ∉ before ++ j :: between) (r : SecurityResult)
    (hr : (securityAfter crypto sessionLifetime ops fate db (before ++ j :: between ++ later)).prog i = .ret (.ok r)) :
    r.Excludes username := by
  have hdeactivated : Deactivated username
      (securityAfter crypto sessionLifetime ops fate db (before ++ j :: between)).state := by
    have hprogj : (securityPool crypto sessionLifetime ops db).prog j
        = (SecurityOp.deactivateUser guard username).program crypto sessionLifetime := by
      rw [← hj]
      rfl
    rcases deactivates_first guard username crypto sessionLifetime fate with ⟨e, hdenied⟩ | ⟨c, k, hprog, hdeactivates⟩
    · rw [securityAfter, Pool.interleave_ret (hprogj.trans hdenied)] at hdone
      cases hdone
    · obtain ⟨row, hmem, hname⟩ := hrow
      have hstart : RowIs UserRow.username username (fun _ => True)
          (securityAfter crypto sessionLifetime ops fate db before).state.auth.users :=
        ⟨Pool.interleave_fact (F := fun db => Unique UserRow.username db.auth.users)
          (fun c db h => (handle_users fate c db).unique h) hunique before, row, hmem, hname, trivial⟩
      exact fact_of_done (fun c db h => Deactivated.handle fate c h) (hprogj.trans hprog) hfirst
        (fun db' hdb => hdeactivates db' (hdb ▸ hstart)) hdone
  rw [securityAfter, Pool.interleave, Runs.after_append] at hr
  refine result_of_fact (fun c db h => Deactivated.handle fate c h) (fun c db h => Deactivated.misses fate c h)
    hdeactivated ?_ later hr
  rw [Pool.interleave_unscheduled hbegins]
  exact program_excludes crypto sessionLifetime (ops i) username

/-- A new user, the deactivation of the user, and a login with the right password. -/
def sampleDeactivation (i : Fin 3) : SecurityOp :=
  match i with
  | 0 => .createUser .admin "bob" "pw" .user
  | 1 => .deactivateUser .admin "bob"
  | 2 => .createSession "bob" "pw" none

/-- The user is created in the run, and deactivated before the creation has returned. -/
theorem sampleDeactivation_final :
    ∃ r, (securityAfter sampleCrypto 3600 sampleDeactivation sampleFate sampleSecurityDb
        ([0, 0] ++ 1 :: [0, 1] ++ [2, 2, 2])).prog 2 = .ret (.ok r) ∧ r.Excludes "bob" :=
  ⟨_, rfl, deactivation_final sampleCrypto 3600 sampleDeactivation sampleFate sampleSecurityDb "bob"
    (List.nodup_singleton _) 2 1 .admin rfl [0, 0] [0, 1] [2, 2, 2] (by decide) ⟨_, .tail _ (.head _), rfl⟩ rfl
    (by decide) _ rfl⟩

end UrlShortener.Auth
