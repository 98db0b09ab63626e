import ConfidenceResolver.Hosts.InitTelemetry
import ConfidenceResolver.Resolver.FromProto
import ConfidenceResolver.Support.Effects

/-!
# Hosts — the state from the CDN

`state.rs` of the Rust provider and `refresh_state`.  The state is fetched with the etag of the one
served; a body is decrypted and decoded in four steps, each of which may fail.

* `fetch`, `SharedState.update`, `refreshState`: one refresh.
* `decoded?`: the state that a reply brings.  `refreshState_eq`: what a refresh does with it.
* `state_refresh_in_step`: over every sequence of replies.
-/

namespace ConfidenceResolver

/-! ### The messages -/

/-- `ClientResolverState`. -/
structure ClientResolverState where
  state : List UInt8
  account : String
  logDestinations : List Int32

/-- `LogDestination::from`. -/
def LogDestination.ofInt32 (v : Int32) : LogDestination := if v = 2 then .cloudflare else .edge

/-- `parse_log_destinations`. -/
def parseLogDestinations (raw : List Int32) : List LogDestination :=
  let parsed := raw.map .ofInt32
  if parsed.isEmpty then [.edge] else parsed

/-- The libraries that `fetch` calls: AES-256-GCM by key and nonce, the decoders of the two messages
with the texts of their errors, gzip, and how the error of `from_proto` prints. -/
structure StateCodec where
  open? : List UInt8 → List UInt8 → List UInt8 → Option (List UInt8)
  clientResolverState : List UInt8 → Except String ClientResolverState
  resolverState : List UInt8 → Except String ResolverStatePb
  gzip : GzipLibrary
  fromProtoError : String

/-- The errors of a refresh. -/
inductive RefreshError where
  | stateFetch (message : String)
  | stateHttp (status : Nat)
  | stateParse (message : String)
  | http (message : String)
deriving DecidableEq

/-- What comes of a request to the CDN. -/
inductive Reply where
  /-- a response, with its `etag` header, and its body or the error while it was read -/
  | response (status : Nat) (etag : Option (List UInt8)) (body : Except String (List UInt8))
  | transportError (message : String)

/-- `HeaderValue::to_str`: visible ASCII, spaces and tabs. -/
def toStr (value : List UInt8) : Option String :=
  if value.all fun b => (32 ≤ b && b < 127) || b == 9 then
    some (String.ofList (value.map fun b => Char.ofNat b.toNat))
  else none

/-! ### `StateFetcher` -/

/-- `StateFetcher`, less its client. -/
structure StateFetcher where
  cdnUrl : String
  etag : Option String
  sdk : Option Sdk
  encryptionKey : List UInt8

/-- The request of `fetch`: a URL and `If-None-Match`. -/
def StateFetcher.request (f : StateFetcher) : String × Option String := (f.cdnUrl, f.etag)

/-- A state, its account and its log destinations. -/
structure FetchedState where
  state : ResolverState
  account : String
  destinations : List LogDestination

section Fetch

variable (codec : StateCodec)

/-- `decrypt`. -/
def decrypt (data key : List UInt8) : Except RefreshError (List UInt8) :=
  if data.length < 12 then .error (.stateParse "Encrypted state too short (missing nonce)")
  else if key.length ≠ 32 then .error (.stateParse "Invalid encryption key: Invalid Length")
  else match codec.open? key (data.take 12) (data.drop 12) with
    | some plain => .ok plain
    | none => .error (.stateParse
        "Failed to decrypt resolver state: invalid key or corrupted data")

/-- The decoding of a body in `fetch`. -/
def StateFetcher.decodeBody (f : StateFetcher) (rawBytes : List UInt8) :
    Except RefreshError FetchedState := do
  let protoBytes ← decrypt codec rawBytes f.encryptionKey
  let request ← (codec.clientResolverState protoBytes).mapError fun e =>
    .stateParse ("Failed to decode ClientResolverState: " ++ e)
  let statePb ← (codec.resolverState request.state).mapError fun e =>
    .stateParse ("Failed to decode ResolverState: " ++ e)
  let state ← match ResolverState.fromProto codec.gzip statePb request.account f.sdk with
    | some state => .ok state
    | none => .error (.stateParse ("Failed to create ResolverState: " ++ codec.fromProtoError))
  return ⟨state, request.account, parseLogDestinations request.logDestinations⟩

/-- `fetch`: the result, and the fetcher after it. -/
def StateFetcher.fetch (f : StateFetcher) : Reply →
    Except RefreshError (Option FetchedState) × StateFetcher
  | .transportError message => (.error (.http message), f)
  | .response status etag body =>
      if status = 304 then (.ok none, f)
      else if isSuccess status then
        let newEtag := etag.bind toStr
        match body with
        | .error message => (.error (.http message), f)
        | .ok rawBytes =>
            match f.decodeBody codec rawBytes with
            | .error e => (.error e, f)
            | .ok fetched => (.ok (some fetched), { f with etag := newEtag })
      else (.error (.stateHttp status), f)

end Fetch

/-! ### `SharedState` -/

/-- `SharedState`, less its terminal error. -/
structure SharedState where
  state : Option ResolverState := none
  accountId : Option String := none
  logDestinations : List LogDestination := [.edge]

/-- `update`. -/
def SharedState.update (_ : SharedState) (state : ResolverState) (accountId : String)
    (destinations : List LogDestination) : SharedState :=
  ⟨some state, some accountId, destinations⟩

/-- The fetcher and the state of a provider. -/
structure Refresher where
  fetcher : StateFetcher
  shared : SharedState

namespace Refresher

/-- A provider that has fetched nothing. -/
def new (cdnUrl : String) (sdk : Option Sdk) (encryptionKey : List UInt8) : Refresher :=
  ⟨⟨cdnUrl, none, sdk, encryptionKey⟩, {}⟩

variable (codec : StateCodec)

/-- `refresh_state`, `timeout` being how the time limit prints.  Without a reply the time was up
before `fetch` came to its end; all it waits for comes before it writes the etag. -/
def refreshState (p : Refresher) (timeout : String) :
    Option Reply → Except RefreshError Unit × Refresher
  | none => (.error (.stateFetch ("timed out after " ++ timeout)), p)
  | some reply =>
      let (result, fetcher) := p.fetcher.fetch codec reply
      let p := { p with fetcher := fetcher }
      match result with
      | .error e => (.error e, p)
      | .ok (some new) =>
          (.ok (), { p with shared := p.shared.update new.state new.account new.destinations })
      | .ok none =>
          if p.shared.state.isNone then (.error (.stateFetch "No state returned from CDN"), p)
          else (.ok (), p)

/-- Successive refreshes. -/
def run (p : Refresher) (timeout : String) (replies : List (Option Reply)) : Refresher :=
  replies.foldl (fun p reply => (p.refreshState codec timeout reply).2) p

end Refresher

/-! ### What a reply brings -/

/-- A state with its etag. -/
structure Served where
  etag : Option String
  fetched : FetchedState

section Decoded

variable (codec : StateCodec)

/-- The state in a reply, when its status is one of success and its body can be decoded. -/
def StateFetcher.decoded? (f : StateFetcher) : Reply → Option Served
  | .response status etag (.ok body) =>
      if isSuccess status then
        match f.decodeBody codec body with
        | .ok fetched => some ⟨etag.bind toStr, fetched⟩
        | .error _ => none
      else none
  | _ => none

/-- A provider that serves a version, and has its etag. -/
def Refresher.serve (p : Refresher) (v : Served) : Refresher where
  fetcher := { p.fetcher with etag := v.etag }
  shared := ⟨some v.fetched.state, some v.fetched.account, v.fetched.destinations⟩

variable {codec} {p : Refresher}

/-- The etag is not looked at when a body is decoded. -/
@[simp] theorem decoded?_serve (v : Served) :
    (p.serve v).fetcher.decoded? codec = p.fetcher.decoded? codec := rfl

/-- `fetch` brings the state in a reply, with its etag; else it keeps the fetcher. -/
theorem fetch_cases (codec : StateCodec) (f : StateFetcher) (reply : Reply) :
    (∃ v, f.decoded? codec reply = some v ∧
        f.fetch codec reply = (.ok (some v.fetched), { f with etag := v.etag })) ∨
      f.decoded? codec reply = none ∧ (f.fetch codec reply = (.ok none, f) ∨
        ∃ e, f.fetch codec reply = (.error e, f)) := by
  cases reply with
  | transportError message => exact .inr ⟨rfl, .inr ⟨_, rfl⟩⟩
  | response status etag body =>
      by_cases hunmodified : status = 304
      · subst hunmodified
        exact .inr ⟨by cases body <;> rfl, .inl rfl⟩
      · simp only [StateFetcher.fetch, if_neg hunmodified]
        cases hstatus : isSuccess status with
        | false =>
            refine .inr ⟨?_, .inr ⟨_, rfl⟩⟩
            cases body <;> simp [StateFetcher.decoded?, hstatus]
        | true =>
            cases body with
            | error message => exact .inr ⟨rfl, .inr ⟨_, rfl⟩⟩
            | ok rawBytes =>
                cases hbody : f.decodeBody codec rawBytes with
                | error e =>
                    exact .inr ⟨by simp [StateFetcher.decoded?, hstatus, hbody],
                      .inr ⟨e, by simp only [if_true, hbody]⟩⟩
                | ok fetched =>
                    exact .inl ⟨⟨etag.bind toStr, fetched⟩,
                      by simp [StateFetcher.decoded?, hstatus, hbody],
                      by simp only [if_true, hbody]⟩

/-- **One refresh**: the state that a reply brings is served; without one nothing changes. -/
theorem refreshState_eq (timeout : String) (reply : Option Reply) :
    (p.refreshState codec timeout reply).2 =
      ((reply.bind (p.fetcher.decoded? codec)).map p.serve).getD p := by
  cases reply with
  | none => rfl
  | some reply =>
      rw [Option.bind_some, Refresher.refreshState]
      obtain ⟨v, hdecoded, hfetch⟩ | ⟨hdecoded, hfetch | ⟨e, hfetch⟩⟩ :=
        fetch_cases codec p.fetcher reply
      · rw [hdecoded, hfetch]
        rfl
      · rw [hdecoded, hfetch]
        dsimp only
        split <;> rfl
      · rw [hdecoded, hfetch]
        rfl

/-- **A run** serves the last state that a reply brought. -/
theorem run_eq (timeout : String) (replies : List (Option Reply)) :
    p.run codec timeout replies =
      ((replies.filterMap (·.bind (p.fetcher.decoded? codec))).getLast?.map p.serve).getD p := by
  induction replies generalizing p with
  | nil => rfl
  | cons reply replies ih =>
      have hrun : p.run codec timeout (reply :: replies) =
          (p.refreshState codec timeout reply).2.run codec timeout replies := rfl
      rw [hrun, refreshState_eq, List.filterMap_cons]
      cases reply.bind (p.fetcher.decoded? codec) with
      | none => exact ih
      | some v =>
          rw [Option.map_some, Option.getD_some, ih, decoded?_serve, List.getLast?_cons]
          cases (replies.filterMap (·.bind (p.fetcher.decoded? codec))).getLast? with
          | none => rfl
          | some w => rfl

end Decoded

/-! ### Main results -/

/-- The next request asks with the etag of the state served. -/
theorem request_run (codec : StateCodec) (cdnUrl timeout : String) (sdk : Option Sdk)
    (encryptionKey : List UInt8) (replies : List (Option Reply)) :
    let start := Refresher.new cdnUrl sdk encryptionKey
    (start.run codec timeout replies).fetcher.request = (cdnUrl,
      (replies.filterMap (·.bind (start.fetcher.decoded? codec))).getLast?.bind (·.etag)) := by
  intro start
  rw [run_eq]
  cases (replies.filterMap (·.bind (start.fetcher.decoded? codec))).getLast? <;> rfl

/-- **Etag and state are in step.**  After every sequence of replies both are those of the last
reply whose body was decoded, and there are none when there was no such reply; the next request asks
with that etag.  A reply without such a body changes nothing. -/
theorem state_refresh_in_step (codec : StateCodec) (cdnUrl timeout : String) (sdk : Option Sdk)
    (encryptionKey : List UInt8) (replies : List (Option Reply)) :
    let start := Refresher.new cdnUrl sdk encryptionKey
    let last := (replies.filterMap (·.bind (start.fetcher.decoded? codec))).getLast?
    (start.run codec timeout replies).fetcher.etag = last.bind (·.etag) ∧
      (start.run codec timeout replies).shared.state = last.map (·.fetched.state) ∧
      (start.run codec timeout replies).fetcher.request = (cdnUrl, last.bind (·.etag)) ∧
      ∀ reply : Option Reply, reply.bind (start.fetcher.decoded? codec) = none →
        start.run codec timeout (replies ++ [reply]) = start.run codec timeout replies := by
  intro start last
  have hrun : start.run codec timeout replies = (last.map start.serve).getD start :=
    run_eq timeout replies
  refine ⟨?_, ?_, request_run codec cdnUrl timeout sdk encryptionKey replies,
    fun reply hnone => ?_⟩
  · rw [hrun]
    cases last <;> rfl
  · rw [hrun]
    cases last <;> rfl
  · rw [run_eq, run_eq, List.filterMap_append]
    simp [hnone]

end ConfidenceResolver
