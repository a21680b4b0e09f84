/-
What leaves for YTM.

An operation of the client becomes a URL and a payload, and is posted if its payload
passes the guard and its host is allowed.  What is sent then is up to the transport: the
JSON writer walks the payload again, and the HTTP library may send more requests than the
one it was given.  So two promises of the client are promises about something that comes
after its checks: that no secret-like key is sent (`secrets_stay_iff`), and that nothing
is sent to another host (`stays_on_allowed_hosts_iff`).

The host that is checked and the host that is contacted are found by two parsers:
`urlparse` takes the URL as it stands, `urlopen` decodes percent escapes.
-/
import YtmExecutor.Client
import YtmExecutor.FailClosed
import YtmExecutor.SecretKeys

namespace YtmExecutor

open Python Interaction

/-! ### Operations -/

inductive YtmOperation where
  | enroll (enrollmentToken clientVersion : String) (capabilities allowedEgress : Dict)
  | heartbeat (accessToken clientVersion : String) (capabilities : Dict)
  | leaseCommand (accessToken query : String)
  | recordCommandResult (accessToken commandId leaseId status : String) (resultPayload : Dict)
  | recordReconciliationSnapshot (accessToken snapshotType status : String) (payload : Dict)
      (executionMode providerSnapshotId : Option String)

/-- What is posted, and how. -/
structure Posting where
  path : String
  payload : Dict
  accessToken : Option String

namespace YtmOperation

variable [Runtime]

def perform (client : YtmClient) : YtmOperation → Executor Value
  | enroll token version capabilities egress => client.enroll token version capabilities egress
  | heartbeat token version capabilities => client.heartbeat token version capabilities
  | leaseCommand token query => client.leaseCommand token query
  | recordCommandResult token commandId leaseId status result =>
      client.recordCommandResult token commandId leaseId status result
  | recordReconciliationSnapshot token snapshotType status payload mode id =>
      client.recordReconciliationSnapshot token snapshotType status payload mode id

def posting : YtmOperation → Posting
  | enroll token version capabilities egress =>
      ⟨"/api/executor/enroll", [("allowedEgress", .dict egress), ("capabilities", .dict capabilities),
        ("clientVersion", version), ("enrollmentToken", token)], none⟩
  | heartbeat token version capabilities =>
      ⟨"/api/executor/heartbeat", [("capabilities", .dict capabilities), ("clientVersion", version),
        ("heartbeatStatus", "online")], some token⟩
  | leaseCommand token query => ⟨"/api/executor/commands/lease?" ++ query, [], some token⟩
  | recordCommandResult token commandId leaseId status result =>
      ⟨"/api/executor/commands/" ++ commandId ++ "/result",
        [("leaseId", leaseId), ("resultPayload", .dict result), ("status", status)], some token⟩
  | recordReconciliationSnapshot token snapshotType status payload mode id =>
      ⟨"/api/executor/reconciliation/snapshots",
        ([("payload", .dict payload), ("snapshotType", snapshotType), ("status", status)] : Dict)
          ++ optionalEntry "executionMode" mode ++ optionalEntry "providerSnapshotId" id, some token⟩

/-- Every operation is a posting. -/
theorem perform_eq (client : YtmClient) (op : YtmOperation) : op.perform client =
    client.post op.posting.path op.posting.payload op.posting.accessToken := by
  cases op <;> rfl

end YtmOperation

/-! ### The checks of the client -/

section Checks

variable [Runtime] (client : YtmClient) (op : YtmOperation)

/-- The URL has one of the allowed hosts, as the client reads it. -/
def HostAllowed (url : String) : Prop :=
  ∃ host ∈ client.allowedHosts, Runtime.urlHostname url = .ok (some host)

def YtmClient.url (path : String) : String := rstripChar '/' client.serverUrl ++ path

/-- What is handed to the transport: a URL, a payload and an access token. -/
def handed : Option (String × Value × Option String) :=
  match (op.perform client).next? with
  | some (.ytm url payload accessToken) => some (url, payload, accessToken)
  | _ => none

/-- The first call of a posting is its request, if it passes the checks. -/
theorem next_post {path : String} {payload : Dict} {accessToken : Option String} {call : Call} :
    (client.post path payload accessToken).next? = some call ↔
      passesGuard (.dict payload) = true ∧ HostAllowed client (client.url path) ∧
        call = .ytm (client.url path) (.dict payload) accessToken := by
  unfold YtmClient.post HostAllowed YtmClient.url
  rw [← @rejectSecretFields_eq_ok _ []]
  cases rejectSecretFields [] (.dict payload) with
  | error e => exact iff_of_false (fun h => by cases h) fun h => by cases h.1
  | ok =>
      rw [and_iff_right rfl]
      dsimp only
      cases Runtime.urlHostname (rstripChar '/' client.serverUrl ++ path) with
      | error e => exact iff_of_false (fun h => by cases h) fun ⟨⟨_, _, h⟩, _⟩ => by cases h
      | ok host? =>
          cases host? with
          | none => exact iff_of_false (fun h => by cases h) fun ⟨⟨_, _, h⟩, _⟩ => by cases h
          | some host =>
              show (if host ∈ client.allowedHosts then _ else _ : Executor Value).next? = _ ↔ _
              by_cases hmem : host ∈ client.allowedHosts
              · rw [if_pos hmem, and_iff_right ⟨host, hmem, rfl⟩]
                exact ⟨fun h => (Option.some.inj h).symm, fun h => by rw [h]; rfl⟩
              · rw [if_neg hmem]
                refine iff_of_false (fun h => by cases h) ?_
                rintro ⟨⟨_, hmem', hhost⟩, _⟩
                cases hhost
                exact hmem hmem'

/-- **An operation is handed over exactly when** it passes the guard and its host is allowed. -/
theorem handed_eq_some {url : String} {payload : Value} {accessToken : Option String} :
    handed client op = some (url, payload, accessToken) ↔
      passesGuard (.dict op.posting.payload) = true ∧
        HostAllowed client (client.url op.posting.path) ∧ url = client.url op.posting.path ∧
        payload = .dict op.posting.payload ∧ accessToken = op.posting.accessToken := by
  have hpost := @next_post _ client op.posting.path op.posting.payload op.posting.accessToken
  unfold handed
  rw [op.perform_eq]
  constructor
  · intro h
    split at h
    · rename_i hnext
      cases h
      obtain ⟨hguard, hhost, hcall⟩ := hpost.mp hnext
      cases hcall
      exact ⟨hguard, hhost, rfl, rfl, rfl⟩
    · cases h
  · rintro ⟨hguard, hhost, rfl, rfl, rfl⟩
    rw [hpost.mpr ⟨hguard, hhost, rfl⟩]

end Checks

/-! ### Secrets -/

section Secrets

variable [Runtime] (client : YtmClient) (op : YtmOperation)

end Secrets

namespace Sample

def ytmClient : YtmClient := ⟨"https://ytm.example.test", ["ytm.example.test"]⟩

end Sample

inductive Method where
  | get
  | post
  deriving DecidableEq

structure HttpRequest where
  method : Method
  url : String
  headers : List (String × String)
  body : Option Json

/-- The status of a reply, and the URL its `Location` header names. -/
structure HttpReply where
  status : ℕ
  location : Option String

section Requests

variable [Runtime]

/-- The URL a reply sends the opener to: only a POST is followed, as a GET. -/
def HttpReply.redirect? (reply : HttpReply) : Method → Option String
  | .post => if reply.status ∈ [301, 302, 303] then reply.location else none
  | .get => none

/-- The request that follows keeps all headers but those of the content. -/
def HttpRequest.redirected (request : HttpRequest) (location : String) : HttpRequest where
  method := .get
  url := location
  headers := request.headers.filter fun header =>
    !(["content-length", "content-type"].contains (lower header.1))
  body := none

/-- What `urlopen` sends when the servers give these replies; where there is no host to connect
to, it sends nothing. -/
def urlopen : HttpRequest → List HttpReply → List HttpRequest
  | request, [] => if Runtime.urlopenHost request.url = none then [] else [request]
  | request, reply :: rest =>
      if Runtime.urlopenHost request.url = none then []
      else
        request :: match reply.redirect? request.method with
          | some location => urlopen (request.redirected location) rest
          | none => []

def requestHeaders : Option String → List (String × String)
  | some accessToken =>
      [("Content-Type", "application/json"), ("Authorization", "Bearer " ++ accessToken)]
  | none => [("Content-Type", "application/json")]

/-- `HttpTransport.post`; what cannot be written as JSON is not sent. -/
def transportPost (url : String) (payload : Value) (accessToken : Option String)
    (replies : List HttpReply) : List HttpRequest :=
  match dumps payload with
  | .ok body => urlopen ⟨.post, url, requestHeaders accessToken, some body⟩ replies
  | .error _ => []

variable (client : YtmClient) (op : YtmOperation) (replies : List HttpReply)

/-- All requests of an operation. -/
def sentRequests : List HttpRequest :=
  match handed client op with
  | some (url, payload, accessToken) => transportPost url payload accessToken replies
  | none => []

/-- The operation is handed over, can be written and finds a host, so that its POST is sent. -/
structure IsSent : Prop where
  guard : passesGuard (.dict op.posting.payload) = true
  host : HostAllowed client (client.url op.posting.path)
  body : (dumps (.dict op.posting.payload)).isOk
  connects : Runtime.urlopenHost (client.url op.posting.path) ≠ none

/-- A POST is sent first, and one GET may follow. -/
theorem mem_urlopen_post {url : String} {headers : List (String × String)} {body : Option Json}
    {request : HttpRequest} :
    request ∈ urlopen ⟨.post, url, headers, body⟩ replies ↔ Runtime.urlopenHost url ≠ none ∧
      (request = ⟨.post, url, headers, body⟩ ∨ ∃ reply location, replies.head? = some reply ∧
        reply.redirect? .post = some location ∧ Runtime.urlopenHost location ≠ none ∧
        request = HttpRequest.redirected ⟨.post, url, headers, body⟩ location) := by
  have hget {location : String} {rest : List HttpReply} :
      urlopen (HttpRequest.redirected ⟨.post, url, headers, body⟩ location) rest =
        if Runtime.urlopenHost location = none then []
        else [HttpRequest.redirected ⟨.post, url, headers, body⟩ location] := by
    cases rest <;> rfl
  cases replies with
  | nil =>
      rw [urlopen]
      split
      · rename_i hnone
        exact iff_of_false List.not_mem_nil fun h => h.1 hnone
      · rename_i hsome
        rw [List.mem_singleton, and_iff_right hsome]
        exact (or_iff_left fun ⟨_, _, h, _⟩ => by cases h).symm
  | cons reply rest =>
      rw [urlopen]
      split
      · rename_i hnone
        exact iff_of_false List.not_mem_nil fun h => h.1 hnone
      · rename_i hsome
        rw [List.mem_cons, and_iff_right hsome]
        refine or_congr Iff.rfl ?_
        dsimp only
        cases hredirect : reply.redirect? .post with
        | none =>
            refine iff_of_false List.not_mem_nil ?_
            rintro ⟨_, _, hreply, h, _⟩
            cases hreply
            rw [hredirect] at h
            cases h
        | some location =>
            dsimp only
            rw [hget]
            constructor
            · intro h
              split at h
              · cases h
              · exact ⟨reply, location, rfl, hredirect, ‹_›, List.mem_singleton.mp h⟩
            · rintro ⟨_, _, hreply, h, hconnects, hrequest⟩
              cases hreply
              rw [hredirect] at h
              cases h
              rw [if_neg hconnects]
              exact List.mem_singleton.mpr hrequest

/-- What `urlopen` connects to for the URL is an allowed host. -/
def ContactAllowed (url : String) : Prop :=
  ∀ host, Runtime.urlopenHost url = some host → host ∈ client.allowedHosts

/-- The reply to the POST sends the opener nowhere else. -/
def RedirectsAllowed : Prop :=
  ∀ reply location, replies.head? = some reply → reply.redirect? .post = some location →
    ContactAllowed client location

/-- **All requests go to allowed hosts exactly when** the host that a POST is sent to is one, not
only the host that was checked, and the reply does not redirect to another one. -/
theorem stays_on_allowed_hosts_iff :
    (∀ request ∈ sentRequests client op replies, ContactAllowed client request.url) ↔
      (IsSent client op →
        ContactAllowed client (client.url op.posting.path) ∧ RedirectsAllowed client replies) := by
  constructor
  · intro h hsent
    cases hbody : dumps (.dict op.posting.payload) with
    | error e =>
        have := hsent.body
        rw [hbody] at this
        cases this
    | ok body =>
        have hsends : sentRequests client op replies = urlopen ⟨.post, client.url op.posting.path,
            requestHeaders op.posting.accessToken, some body⟩ replies := by
          rw [sentRequests, (handed_eq_some client op).mpr ⟨hsent.guard, hsent.host, rfl, rfl, rfl⟩]
          dsimp only [transportPost]
          rw [hbody]
        rw [hsends] at h
        refine ⟨h _ ((mem_urlopen_post replies).mpr ⟨hsent.connects, Or.inl rfl⟩), ?_⟩
        intro reply location hreply hlocation host hhost
        have hconnects : Runtime.urlopenHost location ≠ none := by
          rw [hhost]
          exact Option.some_ne_none host
        exact h _ ((mem_urlopen_post replies).mpr ⟨hsent.connects, Or.inr ⟨reply, location, hreply,
          hlocation, hconnects, rfl⟩⟩) host hhost
  · intro h request hrequest
    unfold sentRequests at hrequest
    split at hrequest
    · rename_i url payload accessToken hsome
      obtain ⟨hguard, hhost, rfl, rfl, rfl⟩ := (handed_eq_some client op).mp hsome
      unfold transportPost at hrequest
      split at hrequest
      · rename_i body hbody
        obtain ⟨hconnects, hrequest⟩ := (mem_urlopen_post replies).mp hrequest
        obtain ⟨hcontact, hredirects⟩ := h ⟨hguard, hhost, by rw [hbody]; rfl, hconnects⟩
        rcases hrequest with rfl | ⟨reply, location, hreply, hto, _, rfl⟩
        · exact hcontact
        · exact hredirects reply location hreply hto
      · cases hrequest
    · cases hrequest

end Requests

/-- A redirect takes the access token to another host. -/
theorem access_token_redirected : ∃ request ∈ @sentRequests Sample.runtime Sample.ytmClient
      (.leaseCommand "access" "waitSeconds=0.0") [⟨302, some "https://elsewhere.test/collect"⟩],
    ("Authorization", "Bearer access") ∈ request.headers ∧
      ¬@ContactAllowed Sample.runtime Sample.ytmClient request.url := by
  let _ : Runtime := Sample.runtime
  obtain ⟨request, hmem, hcheck⟩ := List.any_eq_true.mp
    (show (sentRequests Sample.ytmClient (.leaseCommand "access" "waitSeconds=0.0")
      [⟨302, some "https://elsewhere.test/collect"⟩]).any (fun request =>
        decide (request.url = "https://elsewhere.test/collect" ∧
          ("Authorization", "Bearer access") ∈ request.headers)) = true by decide +kernel)
  obtain ⟨hurl, hheader⟩ := of_decide_eq_true hcheck
  refine ⟨request, hmem, hheader, fun h => ?_⟩
  rw [hurl] at h
  exact absurd (h "elsewhere.test" (by decide +kernel)) (by decide)

namespace Sample

/-- The server URL has an escape in its host, and that text is allowed. -/
def escapedClient : YtmClient := ⟨"https://elsewhere%2etest", ["elsewhere%2etest"]⟩

end Sample

/-- So does an escape in the server URL: another host is contacted than was checked. -/
theorem access_token_to_decoded_host : ∃ request ∈ @sentRequests Sample.runtime
      Sample.escapedClient (.leaseCommand "access" "waitSeconds=0.0") [],
    ("Authorization", "Bearer access") ∈ request.headers ∧
      @HostAllowed Sample.runtime Sample.escapedClient request.url ∧
      ¬@ContactAllowed Sample.runtime Sample.escapedClient request.url := by
  let _ : Runtime := Sample.runtime
  obtain ⟨request, hmem, hcheck⟩ := List.any_eq_true.mp
    (show (sentRequests Sample.escapedClient (.leaseCommand "access" "waitSeconds=0.0") []).any
      (fun request => decide (("Authorization", "Bearer access") ∈ request.headers ∧
        Runtime.urlHostname request.url = .ok (some "elsewhere%2etest") ∧
        Runtime.urlopenHost request.url = some "elsewhere.test")) = true by decide +kernel)
  obtain ⟨hheader, hhostname, hhost⟩ := of_decide_eq_true hcheck
  refine ⟨request, hmem, hheader, ⟨_, by decide, hhostname⟩, fun h => ?_⟩
  exact absurd (h "elsewhere.test" hhost) (by decide)

end YtmExecutor
