/-
One lease, one answer.

What a run of the command loop says to the cloud falls into turns.  A turn leases; if a
command came with the lease it works, which is to ask a broker and to read and write the
file of results, and then it records one result, under the ids that came with the lease
and no others.  A turn that raises may end before its answer, and the next one starts with
a lease again, so no answer is ever given twice or to somebody else's question.

`TurnSays` is this shape, with what the turn came to; `one_lease_one_answer` says that
every run of the loop is a sequence of such turns.
-/
import YtmExecutor.ResultLedger

namespace YtmExecutor

open Python Decimal Interaction Prog World

/-! ### What a turn says -/

/-- The request that leases a command. -/
def leaseCall (session : Session) : Call :=
  .ytm (rstripChar '/' session.client.serverUrl
    ++ ("/api/executor/commands/lease?" ++ session.leaseQuery)) (.dict [])
    (some session.accessToken)

/-- The reply leases this item. -/
def LeasesItem (reply : Except PyError Value) (item : Dict) : Prop :=
  ∃ leaseResponse : Dict, reply = .ok (.dict leaseResponse) ∧
    leaseResponse.get "item" = .dict item

/-- The ids of the command and of the lease in an item. -/
structure HasIds (item : Dict) (commandId leaseId : String) : Prop where
  command : ∃ command : Dict, item.get "command" = .dict command ∧
    command.get "id" = .str commandId
  lease : ∃ lease : Dict, item.get "lease" = .dict lease ∧ lease.get "id" = .str leaseId

/-- A call that is no request to YTM. -/
def IsWork : Call → Prop
  | .ytm _ _ _ => False
  | _ => True

/-- What a turn of the loop says, and what it comes to. -/
inductive TurnSays (session : Session) :
    Transcript Call Value PyError → Except PyError Unit → Prop
  /-- The client refuses to make the request. -/
  | refused (e : PyError) : TurnSays session [] (.error e)
  /-- No command came with the reply. -/
  | idle (reply : Except PyError Value) (out : Except PyError Unit)
      (hreply : ∀ item, ¬LeasesItem reply item) : TurnSays session [(leaseCall session, reply)] out
  /-- The turn raised before it had an answer. -/
  | failed (reply : Except PyError Value) (work : Transcript Call Value PyError) (e : PyError)
      (hwork : ∀ x ∈ work, IsWork x.1) :
      TurnSays session ((leaseCall session, reply) :: work) (.error e)
  /-- The command of the lease is answered, under the ids that came with it. -/
  | answered (reply : Except PyError Value) (work : Transcript Call Value PyError) (item : Dict)
      (commandId leaseId status : String) (resultPayload : Dict) (answer : Except PyError Value)
      (out : Except PyError Unit) (hreply : LeasesItem reply item)
      (hids : HasIds item commandId leaseId) (hwork : ∀ x ∈ work, IsWork x.1) :
      TurnSays session ((leaseCall session, reply) ::
        (work ++ [(recordCall session commandId leaseId status resultPayload, answer)])) out

section Turn

variable [Runtime] {session : Session} {ctx : Context}
variable {t : Transcript Call Value PyError} {out : Except PyError Unit}

/-- Posting is one request, whose answer it comes to, or none. -/
theorem run_post_cases {client : YtmClient} {path : String} {payload : Dict}
    {token : Option String} {out : Except PyError Value}
    (h : Run (client.post path payload token) t out) :
    (t = [] ∧ ∃ e, out = .error e) ∨
      t = [(.ytm (rstripChar '/' client.serverUrl ++ path) (.dict payload) token, out)] := by
  rcases run_ofExcept_bind.mp h with ⟨_, _, h⟩ | ⟨e, _, rfl, rfl⟩
  · rcases run_ofExcept_bind.mp h with ⟨host?, _, h⟩ | ⟨e, _, rfl, rfl⟩
    · cases host? with
      | none => exact Or.inl ⟨h.1, _, h.2⟩
      | some host =>
          dsimp only at h
          split at h
          · exact Or.inr (run_perform.mp h)
          · exact Or.inl ⟨h.1, _, h.2⟩
    · exact Or.inl ⟨rfl, e, rfl⟩
  · exact Or.inl ⟨rfl, e, rfl⟩

/-! ### Work, then an answer -/

/-- What is said of a leased item: work, and one answer at the end unless it raises. -/
def WorksThenAnswers (session : Session) (item : Dict) (commandId : String)
    (t : Transcript Call Value PyError) (out : Except PyError Unit) : Prop :=
  ∃ work, (∀ x ∈ work, IsWork x.1) ∧ ((t = work ∧ ∃ e, out = .error e) ∨
    ∃ (lease : Dict) (leaseId status : String) (resultPayload : Dict)
        (answer : Except PyError Value),
      item.get "lease" = .dict lease ∧ lease.get "id" = .str leaseId ∧
      t = work ++ [(recordCall session commandId leaseId status resultPayload, answer)])

variable {item : Dict} {commandId : String}

omit [Runtime] in
/-- Work in front of an answer is part of the work. -/
theorem WorksThenAnswers.after {t' : Transcript Call Value PyError}
    (hwork : ∀ x ∈ t, IsWork x.1) (h : WorksThenAnswers session item commandId t' out) :
    WorksThenAnswers session item commandId (t ++ t') out := by
  obtain ⟨work, hwork', h⟩ := h
  refine ⟨t ++ work, List.forall_mem_append.mpr ⟨hwork, hwork'⟩, ?_⟩
  rcases h with ⟨rfl, herror⟩ | ⟨lease, leaseId, status, resultPayload, answer, hlease, hid, rfl⟩
  · exact Or.inl ⟨rfl, herror⟩
  · exact Or.inr ⟨lease, leaseId, status, resultPayload, answer, hlease, hid,
      (List.append_assoc _ _ _).symm⟩

omit [Runtime] in
/-- A part that works, before one that answers. -/
theorem worksThenAnswers_bind {α : Type} {p : Executor α} {f : α → Executor Unit}
    (hp : CallsOnly IsWork p)
    (hf : ∀ a t out, Run (f a) t out → WorksThenAnswers session item commandId t out)
    (h : Run (p >>= f) t out) : WorksThenAnswers session item commandId t out := by
  rcases (run_bind p).mp h with ⟨t₁, t₂, a, rfl, hrun, hrest⟩ | ⟨e, rfl, hrun⟩
  · exact (hf a t₂ out hrest).after (hp.run hrun)
  · exact ⟨t, hp.run hrun, Or.inl ⟨rfl, e, rfl⟩⟩

omit [Runtime] in
/-- A text that has to be there is one that is not empty. -/
theorem expectText_eq_ok {payload : Dict} {key text : String} :
    expectText payload key = .ok text ↔ payload.get key = .str text ∧ text ≠ "" := by
  unfold expectText
  cases payload.get key with
  | str found =>
      dsimp only
      split
      · rename_i hempty
        refine iff_of_false (fun h => by cases h) ?_
        rintro ⟨h, hne⟩
        exact hne (Value.str.inj h ▸ hempty)
      · rename_i hne
        rw [Except.ok.injEq, Value.str.injEq, iff_self_and]
        rintro rfl
        exact hne
  | none | bool | int | float | list | tuple | dict =>
      exact iff_of_false (fun h => by cases h) fun h => by cases h.1

/-- Recording a decision is an answer. -/
theorem worksThenAnswers_record {command : Dict} {d : CommandPreflightDecision}
    (hitem : item.get "command" = .dict command) (hid : expectText command "id" = .ok commandId)
    (h : Run (recordPreflightDecision session item d) t out) :
    WorksThenAnswers session item commandId t out := by
  have hobject : expectObject item "command" = .ok command := by rw [expectObject, hitem]
  have hraised : ∀ e, t = [] → out = .error e → WorksThenAnswers session item commandId t out := by
    rintro e rfl rfl
    exact ⟨[], List.forall_mem_nil _, Or.inl ⟨rfl, e, rfl⟩⟩
  unfold recordPreflightDecision at h
  rw [hobject] at h
  rcases run_ofExcept_bind.mp h with ⟨_, hcommand, h⟩ | ⟨e, _, ht, hout⟩
  · obtain rfl := Except.ok.inj hcommand
    rcases run_ofExcept_bind.mp h with ⟨lease, hlease, h⟩ | ⟨e, _, ht, hout⟩
    · rw [hid] at h
      rcases run_ofExcept_bind.mp h with ⟨_, hcommandId, h⟩ | ⟨e, _, ht, hout⟩
      · obtain rfl := Except.ok.inj hcommandId
        rcases run_ofExcept_bind.mp h with ⟨leaseId, hleaseId, h⟩ | ⟨e, _, ht, hout⟩
        · rcases (run_bind _).mp h with ⟨t₁, t₂, reply, rfl, hpost, hrest⟩ | ⟨e, rfl, hpost⟩
          · obtain ⟨rfl, _⟩ := hrest
            rcases run_post_cases hpost with ⟨_, e, he⟩ | rfl
            · cases he
            · exact ⟨[], List.forall_mem_nil _, Or.inr ⟨lease, leaseId, _, _, _,
                expectObject_eq_ok hlease, (expectText_eq_ok.mp hleaseId).1, List.append_nil _⟩⟩
          · rcases run_post_cases hpost with ⟨ht, _⟩ | rfl
            · exact hraised e ht rfl
            · exact ⟨[], List.forall_mem_nil _, Or.inr ⟨lease, leaseId, _, _, _,
                expectObject_eq_ok hlease, (expectText_eq_ok.mp hleaseId).1, rfl⟩⟩
        · exact hraised e ht hout
      · exact hraised e ht hout
    · exact hraised e ht hout
  · exact hraised e ht hout

variable [BinanceSdk]

theorem worksThenAnswers_processCommand {command : Dict} {inputs : LocalInputs}
    (hitem : item.get "command" = .dict command) (hid : expectText command "id" = .ok commandId)
    (h : Run (processCommand session ctx item command commandId inputs) t out) :
    WorksThenAnswers session item commandId t out := by
  have hbroker : ∀ c, IsBrokerCall c → IsWork c := by
    intro c hc
    cases c with
    | ytm url payload token => exact hc.elim
    | _ => trivial
  refine worksThenAnswers_bind (CallsOnly.ofExcept _) (fun preflight t out h => ?_) h
  refine worksThenAnswers_bind (Safe.mono (fun _ => hbroker) (fun _ _ _ => trivial)
    preflightCommand_callsOnly) (fun d t out h => ?_) h
  split at h
  · exact worksThenAnswers_bind (storeResult_callsOnly trivial fun _ => trivial)
      (fun _ t out h => worksThenAnswers_record hitem hid h) h
  · exact worksThenAnswers_record hitem hid h

/-! ### Turns -/

/-- What a turn says after its lease: nothing if no command came, or work and an answer. -/
theorem worksThenAnswers_processLeaseResponse {leaseResponse : Dict} {inputs : LocalInputs}
    (h : Run (processLeaseResponse session ctx leaseResponse inputs) t out) :
    ((∀ item, leaseResponse.get "item" ≠ .dict item) ∧ t = []) ∨
      ∃ item : Dict, leaseResponse.get "item" = .dict item ∧ ((t = [] ∧ ∃ e, out = .error e) ∨
        ∃ (command : Dict) (commandId : String), item.get "command" = .dict command ∧
          command.get "id" = .str commandId ∧
          WorksThenAnswers session item commandId t out) := by
  unfold processLeaseResponse at h
  split at h
  · rename_i item hitem
    refine Or.inr ⟨item, hitem, ?_⟩
    rcases run_ofExcept_bind.mp h with ⟨command, hcommand, h⟩ | ⟨e, _, rfl, rfl⟩
    · rcases run_ofExcept_bind.mp h with ⟨commandId, hid, h⟩ | ⟨e, _, rfl, rfl⟩
      · have hitemCommand := expectObject_eq_ok hcommand
        refine Or.inr ⟨command, commandId, hitemCommand, (expectText_eq_ok.mp hid).1, ?_⟩
        refine worksThenAnswers_bind (cachedResult_callsOnly trivial) (fun cached t out h => ?_) h
        cases cached with
        | some cached => exact worksThenAnswers_record hitemCommand hid h
        | none => exact worksThenAnswers_processCommand hitemCommand hid h
      · exact Or.inl ⟨rfl, e, rfl⟩
    · exact Or.inl ⟨rfl, e, rfl⟩
  · rename_i hno
    exact Or.inl ⟨hno, h.1⟩

/-- **A turn is a lease, and work with an answer to it.** -/
theorem turnSays_of_run {inputs : LocalInputs}
    (h : Run (leaseAndProcess session ctx inputs) t out) : TurnSays session t out := by
  rcases (run_bind _).mp h with ⟨t₁, t₂, response, rfl, hlease, hrest⟩ | ⟨e, rfl, hlease⟩
  · rcases run_post_cases hlease with ⟨_, e, he⟩ | rfl
    · cases he
    · split at hrest
      · rename_i leaseResponse
        rcases worksThenAnswers_processLeaseResponse hrest with ⟨hno, rfl⟩ | ⟨item, hitem, hsaid⟩
        · refine TurnSays.idle _ out ?_
          rintro item ⟨found, hfound, hitem⟩
          obtain rfl := Value.dict.inj (Except.ok.inj hfound)
          exact hno item hitem
        · rcases hsaid with ⟨rfl, e, rfl⟩ | ⟨command, commandId, hcommand, hid, work, hwork,
            ⟨rfl, e, rfl⟩ | ⟨lease, leaseId, status, resultPayload, answer, hlease, hleaseId, rfl⟩⟩
          · exact TurnSays.failed _ [] e (List.forall_mem_nil _)
          · exact TurnSays.failed _ _ e hwork
          · exact TurnSays.answered _ work item commandId leaseId status resultPayload answer out
              ⟨leaseResponse, rfl, hitem⟩ ⟨⟨command, hcommand, hid⟩, ⟨lease, hlease, hleaseId⟩⟩ hwork
      · rename_i hno
        obtain ⟨rfl, _⟩ := hrest
        refine TurnSays.idle _ out ?_
        rintro item ⟨found, hfound, _⟩
        exact hno found (Except.ok.inj hfound)
  · rcases run_post_cases hlease with ⟨rfl, _⟩ | rfl
    · exact TurnSays.refused e
    · refine TurnSays.idle _ _ ?_
      rintro item ⟨found, hfound, _⟩
      cases hfound

omit [Runtime] [BinanceSdk] in
/-- A guarded turn ends well, whatever the turn came to. -/
theorem run_guarded {turn : Executor Unit} (h : Run (guarded turn) t out) :
    out = .ok () ∧ ∃ came, Run turn t came := by
  rcases (run_handle turn).mp h with ⟨hrun, hnone⟩ | ⟨t₁, t₂, e, q, rfl, hrun, hq, hdone⟩
  · cases out with
    | ok u => exact ⟨rfl, _, hrun⟩
    | error e => cases hnone e rfl
  · rw [← Option.some.inj hq] at hdone
    obtain ⟨rfl, rfl⟩ := hdone
    exact ⟨rfl, .error e, by rwa [List.append_nil]⟩

/--
**One lease, one answer.**  Every run of the command loop ends well and is a sequence of
turns, one for each time around: each starts with its own lease, records at most one
result, last of all and under the ids that came with that lease, and records one unless it
raised or no command came.
-/
theorem one_lease_one_answer {turns : List LocalInputs}
    (h : Run (commandLoop session ctx turns) t out) :
    out = .ok () ∧ ∃ said : List (Transcript Call Value PyError × Except PyError Unit),
      t = (said.map Prod.fst).flatten ∧
      List.Forall₂ (fun inputs x => Run (leaseAndProcess session ctx inputs) x.1 x.2) turns said ∧
      ∀ x ∈ said, TurnSays session x.1 x.2 := by
  induction turns generalizing t with
  | nil =>
      obtain ⟨rfl, rfl⟩ := h
      exact ⟨rfl, [], rfl, List.Forall₂.nil, List.forall_mem_nil _⟩
  | cons inputs rest ih =>
      rcases (run_bind _).mp h with ⟨t₁, t₂, _, rfl, hturn, hrest⟩ | ⟨e, rfl, hturn⟩
      · obtain ⟨_, came, hrun⟩ := run_guarded hturn
        obtain ⟨hout, said, rfl, hruns, hsays⟩ := ih hrest
        exact ⟨hout, (t₁, came) :: said, rfl, List.Forall₂.cons hrun hruns,
          List.forall_mem_cons.mpr ⟨turnSays_of_run hrun, hsays⟩⟩
      · cases (run_guarded hturn).1

end Turn

namespace Sample

/-- In one turn the sample command is leased, placed and recorded; in the next nothing comes. -/
def twoTurns : List (Except PyError Value) :=
  [.ok (.dict leaseResponse), .ok (.dict []), accountReply, instrumentReply, leverageReply,
    noOrderReply, orderReply, emptyReply, emptyReply, emptyReply, emptyReply, emptyReply,
    .ok (.dict []), .ok .none, .ok (.dict []), .ok (.dict [])]

end Sample

theorem one_lease_one_answer_sample :
    ∃ t out, t.length = 16 ∧ Run (@commandLoop Sample.runtime Sample.session defaultContext
        Sample.sdk [Sample.localInputs, Sample.localInputs]) t out ∧ out = .ok () ∧
      ∃ said : List (Transcript Call Value PyError × Except PyError Unit),
        t = (said.map Prod.fst).flatten ∧ ∀ x ∈ said, TurnSays Sample.session x.1 x.2 := by
  obtain ⟨t, out, hrun, hcheck⟩ := exists_run Sample.twoTurns
    (@commandLoop Sample.runtime Sample.session defaultContext Sample.sdk
      [Sample.localInputs, Sample.localInputs]) (fun t _ => decide (t.length = 16))
    (by decide +kernel)
  obtain ⟨hout, said, ht, _, hsays⟩ := @one_lease_one_answer Sample.runtime _ _ _ _ Sample.sdk _ hrun
  exact ⟨t, out, of_decide_eq_true hcheck, hrun, hout, said, ht, hsays⟩

end YtmExecutor
