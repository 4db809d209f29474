import UrlShortener.Spec.ServiceClients
import UrlShortener.Runs.Basic
import UrlShortener.Text.Lines

/-!
# The scopes of a service client

* `splitScopes_eq`: the tokenizer gives the pieces between commas that are not empty.
* `splitScopes_joinScopes_iff`: a list of scopes is read back exactly if each of them is a piece.
* `step_stored`, `after_stored`: what is stored for a client stays, through every later call.
* `loaded_scopes_iff`: **when a loaded client has the scopes that were given to it.**
-/

namespace UrlShortener.ServiceClients

open Sql Runs Text

/-! ## The tokenizer -/

theorem splitScopesLoop_eq {tok : Str} (htok : ',' ∉ tok) (s : Str) (out : List Str) :
    splitScopesLoop s tok out = out ++ ((tok ++ s).splitOn ',').filter (· ≠ []) := by
  induction s generalizing tok out with
  | nil =>
    rw [splitScopesLoop, List.append_nil, List.splitOn_eq_singleton htok]
    by_cases h : tok = [] <;> simp [h]
  | cons c s ih =>
    by_cases hc : c = ','
    · -- the token ends here, and is dropped if it is empty
      subst hc
      have hsplit : (tok ++ ',' :: s).splitOn ',' = tok :: s.splitOn ',' := by
        rw [List.splitOn_append_cons_self, List.splitOn_eq_singleton htok, List.singleton_append]
      rw [splitScopesLoop, if_pos rfl, hsplit]
      by_cases h : tok = []
      · rw [if_neg (by simpa using h), ih htok]
        simp [h]
      · rw [if_pos h, ih List.not_mem_nil]
        simp [h]
    · have hnext : ',' ∉ tok ++ [c] := by simp [htok, Ne.symm hc]
      rw [splitScopesLoop, if_neg hc, ih hnext, List.append_assoc, List.singleton_append]

/-- **The tokenizer gives the pieces that are not empty.** -/
theorem splitScopes_eq (s : Str) : splitScopes s = (s.splitOn ',').filter (· ≠ []) :=
  splitScopesLoop_eq List.not_mem_nil s []

/-- A scope that survives on its way through the table: not empty, and without a comma. -/
def PlainScope (scope : Str) : Prop := scope ≠ [] ∧ ',' ∉ scope

theorem plainScope_of_mem_splitScopes {s scope : Str} (h : scope ∈ splitScopes s) : PlainScope scope := by
  rw [splitScopes_eq, List.mem_filter] at h
  exact ⟨by simpa using h.2, not_mem_of_mem_splitOn h.1⟩

theorem splitScopes_joinScopes {scopes : List Str} (h : ∀ scope ∈ scopes, PlainScope scope) :
    splitScopes (joinScopes scopes) = scopes := by
  by_cases hnil : scopes = []
  · subst hnil
    rfl
  · rw [splitScopes_eq, joinScopes, List.splitOn_intercalate ',' (fun scope hs => (h scope hs).2) hnil,
      List.filter_eq_self]
    intro scope hs
    simpa using (h scope hs).1

/-- **Scopes are read back** exactly if each of them is a piece. -/
theorem splitScopes_joinScopes_iff {scopes : List Str} :
    splitScopes (joinScopes scopes) = scopes ↔ ∀ scope ∈ scopes, PlainScope scope := by
  constructor
  · intro h scope hs
    rw [← h] at hs
    exact plainScope_of_mem_splitScopes hs
  · exact splitScopes_joinScopes

/-! ## The table -/

/-- The query for the client finds a row with the text of its scopes. -/
def Stored (clientId scopes : Str) (clients : Table ClientRow) : Prop :=
  ∃ row, first (·.clientId == clientId) clients = some row ∧ row.allowedScopes = scopes

variable {clientId scopes : Str} {clients clients' : Table ClientRow}

theorem createClient_eq_some {id : Str} {now : TimePoint} {allowedScopes : List Str} {clientSecretHash : Option Str}
    {client : ServiceClient}
    (h : createClient id now clientId allowedScopes clientSecretHash clients = some (client, clients')) :
    ∃ row : ClientRow, row.clientId = clientId ∧ row.allowedScopes = joinScopes allowedScopes ∧
      clients' = clients ++ [row] ∧ ∀ r ∈ clients, r.clientId ≠ clientId := by
  unfold createClient at h
  simp only at h
  split at h
  · cases h
  · rename_i table hinsert
    cases h
    obtain ⟨hrows, hclash⟩ := insert_eq_some hinsert
    refine ⟨_, rfl, rfl, hrows, fun r hr heq => ?_⟩
    have hno := hclash r hr
    simp [ClientRow.clash, heq] at hno

/-- The row of a client that was just created is found. -/
theorem createClient_stored {id : Str} {now : TimePoint} {allowedScopes : List Str} {clientSecretHash : Option Str}
    {client : ServiceClient}
    (h : createClient id now clientId allowedScopes clientSecretHash clients = some (client, clients')) :
    Stored clientId (joinScopes allowedScopes) clients' := by
  obtain ⟨row, hid, hscopes, rfl, hfresh⟩ := createClient_eq_some h
  refine ⟨row, ?_, hscopes⟩
  have hnone : clients.find? (·.clientId == clientId) = none :=
    List.find?_eq_none.2 fun r hr => by simpa using hfresh r hr
  rw [first, List.find?_append, hnone]
  simp [hid]

/-- A call leaves what is stored for a client. -/
theorem step_stored (call : ClientCall) (h : Stored clientId scopes clients) :
    Stored clientId scopes (call.step clients) := by
  obtain ⟨row, hfirst, hscopes⟩ := h
  cases call with
  | create id now otherId allowedScopes clientSecretHash =>
    simp only [ClientCall.step]
    split
    · exact ⟨row, hfirst, hscopes⟩
    · rename_i client table hcreate
      obtain ⟨new, -, -, rfl, -⟩ := createClient_eq_some hcreate
      refine ⟨row, ?_, hscopes⟩
      rw [first] at hfirst ⊢
      rw [List.find?_append, hfirst]
      rfl
  | touch now otherId =>
    -- the query does not look at the column that is written
    let touched : ClientRow → ClientRow :=
      fun r => if r.clientId == otherId then { r with lastUsedAt := some (toTimeT now) } else r
    have hkeep : ∀ r, (touched r).clientId = r.clientId ∧ (touched r).allowedScopes = r.allowedScopes := by
      intro r
      simp only [touched]
      split <;> exact ⟨rfl, rfl⟩
    refine ⟨touched row, ?_, (hkeep row).2.trans hscopes⟩
    have hcond : ∀ r, ((touched r).clientId == clientId) = (r.clientId == clientId) := by
      intro r
      rw [(hkeep r).1]
    exact (first_image hcond).trans (congrArg (Option.map touched) hfirst)

/-- No call takes the scopes back. -/
theorem after_stored (calls : List ClientCall) (h : Stored clientId scopes clients) :
    Stored clientId scopes (after ClientCall.step clients calls) :=
  after_invariant (fun call _ => step_stored call) h calls

/-- **When a loaded client has the scopes that were given to it**, at any time after it was created: the list is the
same, and `hasScope` grants exactly the scopes of the list, if and only if none of them is empty or holds a comma. -/
theorem loaded_scopes_iff (id : Str) (now : TimePoint) (clientId : Str) (allowedScopes : List Str)
    (clientSecretHash : Option Str) (clients clients' : Table ClientRow) (client : ServiceClient)
    (h : createClient id now clientId allowedScopes clientSecretHash clients = some (client, clients'))
    (calls : List ClientCall) :
    ∃ loaded, findByClientId clientId (after ClientCall.step clients' calls) = some loaded ∧
      (loaded.allowedScopes = allowedScopes ↔ ∀ scope ∈ allowedScopes, scope ≠ [] ∧ ',' ∉ scope) ∧
      ((∀ scope, loaded.hasScope scope = true ↔ scope ∈ allowedScopes) ↔
        ∀ scope ∈ allowedScopes, scope ≠ [] ∧ ',' ∉ scope) := by
  obtain ⟨row, hfirst, hscopes⟩ := after_stored calls (createClient_stored h)
  have hloaded : (fromRow row).allowedScopes = splitScopes (joinScopes allowedScopes) := by
    rw [fromRow, hscopes]
  refine ⟨fromRow row, by rw [findByClientId, hfirst]; rfl, ?_, ?_⟩
  · rw [hloaded]
    exact splitScopes_joinScopes_iff
  · simp only [ServiceClient.hasScope, hloaded, List.contains_eq_mem, decide_eq_true_eq]
    constructor
    · intro hgrant scope hs
      exact plainScope_of_mem_splitScopes ((hgrant scope).2 hs)
    · intro hplain scope
      rw [splitScopes_joinScopes hplain]

/-- The scopes of a client with two plain scopes. -/
theorem loaded_scopes_iff_sample :
    ∃ client clients', createClient "1".toList 0 "cli".toList ["read".toList, "write".toList] none [] =
        some (client, clients') ∧
      ∃ loaded, findByClientId "cli".toList (after ClientCall.step clients' [.touch 5 "cli".toList]) = some loaded ∧
        loaded.allowedScopes = ["read".toList, "write".toList] := by
  obtain ⟨loaded, hfind, hlist, -⟩ := loaded_scopes_iff "1".toList 0 "cli".toList ["read".toList, "write".toList] none
    [] _ _ rfl [.touch 5 "cli".toList]
  exact ⟨_, _, rfl, loaded, hfind, hlist.2 (by decide)⟩

/-- **A scope with a comma grants what was not given**: the client is created with one scope, and loaded with two
others. -/
theorem scope_granted_by_comma :
    ∃ client clients', createClient "1".toList 0 "cli".toList ["read,admin".toList] none [] = some (client, clients') ∧
      ∃ loaded, findByClientId "cli".toList clients' = some loaded ∧
        loaded.hasScope "admin".toList = true ∧ "admin".toList ∉ ["read,admin".toList] ∧
        loaded.hasScope "read,admin".toList = false := by
  refine ⟨_, _, rfl, _, rfl, ?_, ?_, ?_⟩ <;> decide

end UrlShortener.ServiceClients
