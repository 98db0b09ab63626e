import ConfidenceResolver.Resolver.Resolve

/-!
# Apply — a deferred apply

`apply_flags`: the flags of a resolve token are logged as assigned when the client applies them.
The client sends the times at which it applied them by its own clock; each is moved to the clock of
the host.
-/

namespace ConfidenceResolver

/-- `flags_resolver::AppliedFlag`. -/
structure ResolverAppliedFlag where
  flag : String
  applyTime : Option Timestamp

/-- `ApplyFlagsRequest`. -/
structure ApplyFlagsRequest (Bytes : Type) where
  flags : List ResolverAppliedFlag
  resolveToken : Bytes
  sendTime : Option Timestamp

/-- The dates of `chrono`. -/
structure Chrono where
  DateTime : Type
  TimeDelta : Type
  /-- `DateTime::from_timestamp(seconds, nanos as u32)` -/
  fromTimestamp : Timestamp → Option DateTime
  signedDurationSince : DateTime → DateTime → TimeDelta
  checkedSubSigned : DateTime → TimeDelta → Option DateTime
  /-- `timestamp()` and `timestamp_subsec_nanos()` -/
  toTimestamp : DateTime → Timestamp

/-- What an apply takes from its host and from the protobuf library: the time, the decryption of
tokens, and their decoding.  A token that is not of version 1 decodes to `some none`. -/
structure ApplyHost (Bytes Plain : Type) where
  currentTime : Timestamp
  decryptResolveToken : Bytes → Except String Plain
  decodeResolveToken : Plain → Option (Option ResolveToken)

/-- Where `apply_flags` fails with an internal error. -/
inductive ApplySite where
  | receiveTime
  | decodeToken
  | applyTime
  | skew
deriving DecidableEq

/-- The errors of an apply. -/
inductive ApplyError where
  | sendTimeRequired
  | invalidSendTime
  | internal (site : ApplySite)
  | decrypt (text : String)
  | notV1Token
  | flagMismatch
  | missingApplyTime (flag : String)
deriving DecidableEq

/-- The text of an error, with the code of a site as `code`. -/
def ApplyError.text (code : ApplySite → String) : ApplyError → String
  | .sendTimeRequired => "send_time is required"
  | .invalidSendTime => "invalid send_time"
  | .internal site => "internal error [" ++ code site ++ "]"
  | .decrypt text => text
  | .notV1Token => "resolve token is not a V1 token"
  | .flagMismatch => "Flag in resolve token does not match flag in request"
  | .missingApplyTime flag => "Missing apply time for flag " ++ flag

variable {Bytes Plain : Type}

/-- An optional value, or an error. -/
def orFail {α : Type} (e : ApplyError) (x : Option α) : Except ApplyError α :=
  x.elim (.error e) .ok

/-- `decrypt_resolve_token`, and the token of version 1 in it. -/
def ApplyHost.tokenV1 (host : ApplyHost Bytes Plain) (encryptedToken : Bytes) :
    Except ApplyError ResolveToken := do
  let decryptedData ← (host.decryptResolveToken encryptedToken).mapError .decrypt
  let token ← orFail (.internal .decodeToken) (host.decodeResolveToken decryptedData)
  orFail .notV1Token token

/-- One applied flag of a request. -/
def flagToApply (chrono : Chrono) (sendTime receiveTime : chrono.DateTime) (token : ResolveToken)
    (appliedFlag : ResolverAppliedFlag) : Except ApplyError FlagToApply := do
  let assignedFlag ← orFail .flagMismatch (token.assignments.lookup appliedFlag.flag)
  let applyTime ← orFail (.missingApplyTime appliedFlag.flag) appliedFlag.applyTime
  let applyTime ← orFail (.internal .applyTime) (chrono.fromTimestamp applyTime)
  let skew := chrono.signedDurationSince sendTime applyTime
  let adjustedTime ← orFail (.internal .skew) (chrono.checkedSubSigned receiveTime skew)
  return ⟨assignedFlag, chrono.toTimestamp adjustedTime⟩

/-- `apply_flags`. -/
def AccountResolver.applyFlags (r : AccountResolver) (chrono : Chrono)
    (host : ApplyHost Bytes Plain) (request : ApplyFlagsRequest Bytes) :
    Except ApplyError (List HostCall) :=
  if r.disableExposureCollection then .ok []
  else do
    let sendTime ← orFail .sendTimeRequired request.sendTime
    let sendTime ← orFail .invalidSendTime (chrono.fromTimestamp sendTime)
    let receiveTime ← orFail (.internal .receiveTime) (chrono.fromTimestamp host.currentTime)
    let token ← host.tokenV1 request.resolveToken
    -- no flag is logged before all of them are known to be in the token
    let assignedFlags ← request.flags.mapM (flagToApply chrono sendTime receiveTime token)
    return [.logAssign token.resolveId assignedFlags r.client r.state.sdk]

end ConfidenceResolver
