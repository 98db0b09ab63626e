import ConfidenceResolver.Support.LinearMemory

/-!
# Hosts — messages through the guest's memory

A host and the guest exchange messages through blocks of the guest's memory: the one allocates
and writes, the other reads and frees.  A message is wrapped in a `Request` or a `Response`.

* `wasmMsgAlloc`, `wasmMsgFree`, `transferBuffer`, `consumeBuffer`: a block and its size.
* `callSyncGuest`, `callSyncHost`: an exported and an imported function, from the guest's side.
* `Sdk.transfer`, `Sdk.consume`, `Sdk.read`: the host's side.
* `Body`: what a function of the guest does; `Body.run` over the memory, `Body.direct` without it.
* `serve`: a host's calls, one after the other.
-/

namespace ConfidenceResolver

namespace WasmMsg

open OnHeap (load store)

/-! ### Envelopes -/

/-- The bytes of a text. -/
def utf8 (s : String) : Bytes := s.toUTF8.data.toList

def ofUtf8 (bs : Bytes) : Option String := String.fromUTF8? ⟨bs.toArray⟩

theorem ofUtf8_utf8 (s : String) : ofUtf8 (utf8 s) = some s := by
  have hvalid : (⟨(utf8 s).toArray⟩ : ByteArray) = s.toUTF8 := by simp [utf8]
  rw [ofUtf8, hvalid, String.fromUTF8?, String.toUTF8_eq_toByteArray, dif_pos s.isValidUTF8]
  rfl

/-- `wasm_msg.Request`. -/
structure Request where
  data : Bytes
  deriving DecidableEq, Repr

/-- `wasm_msg.Response.result`. -/
inductive Result where
  | data (bs : Bytes)
  | error (text : String)
  deriving DecidableEq, Repr

/-- `wasm_msg.Response`. -/
structure Response where
  result : Option Result
  deriving DecidableEq, Repr

/-- A field without presence is left out when it is empty. -/
def Request.encode (r : Request) : Bytes :=
  Wire.encodeFields (if r.data = [] then [] else [(1, .len r.data)])

/-- One field of a request that is read.  Unknown fields are skipped. -/
def Request.merge (r : Request) : Wire.Field → Option Request
  | (1, .len bs) => some { r with data := bs }
  | (1, _) => none
  | _ => some r

def Request.decode (bs : Bytes) : Option Request :=
  (Wire.decodeFields bs).bind fun fs => fs.foldlM Request.merge ⟨[]⟩

/-- The fields of a choice are written also when they are empty. -/
def Response.encode (r : Response) : Bytes :=
  Wire.encodeFields <| match r.result with
    | none => []
    | some (.data bs) => [(1, .len bs)]
    | some (.error text) => [(2, .len (utf8 text))]

/-- One field of a response that is read.  Of a choice, the last one counts. -/
def Response.merge (r : Response) : Wire.Field → Option Response
  | (1, .len bs) => some { r with result := some (.data bs) }
  | (2, .len bs) => (ofUtf8 bs).map fun text => { r with result := some (.error text) }
  | (1, _) => none
  | (2, _) => none
  | _ => some r

def Response.decode (bs : Bytes) : Option Response :=
  (Wire.decodeFields bs).bind fun fs => fs.foldlM Response.merge ⟨none⟩

/-- The payload of an envelope can be given a length. -/
def Response.Fits (r : Response) : Prop :=
  match r.result with
  | none => True
  | some (.data bs) => bs.length < 2 ^ 64
  | some (.error text) => (utf8 text).length < 2 ^ 64

theorem Request.decode_encode {r : Request} (h : r.data.length < 2 ^ 64) :
    Request.decode r.encode = some r := by
  obtain ⟨data⟩ := r
  by_cases hempty : data = []
  · subst hempty
    simp [Request.decode, Request.encode, Wire.decodeFields_encodeFields]
  · have hfits : ∀ f ∈ [((1, .len data) : Wire.Field)], Wire.FieldFits f := by
      simpa [Wire.FieldFits, Wire.Value.Fits] using h
    simp [Request.decode, Request.encode, hempty, Wire.decodeFields_encodeFields hfits,
      Request.merge]

theorem Response.decode_encode {r : Response} (h : r.Fits) :
    Response.decode r.encode = some r := by
  obtain ⟨_ | ⟨bs | text⟩⟩ := r
  · simp [Response.decode, Response.encode, Wire.decodeFields_encodeFields]
  · have hfits : ∀ f ∈ [((1, .len bs) : Wire.Field)], Wire.FieldFits f := by
      simpa [Wire.FieldFits, Wire.Value.Fits, Response.Fits] using h
    simp [Response.decode, Response.encode, Wire.decodeFields_encodeFields hfits, Response.merge]
  · have hfits : ∀ f ∈ [((2, .len (utf8 text)) : Wire.Field)], Wire.FieldFits f := by
      simpa [Wire.FieldFits, Wire.Value.Fits, Response.Fits] using h
    simp [Response.decode, Response.encode, Wire.decodeFields_encodeFields hfits, Response.merge,
      ofUtf8_utf8]

/-- How the messages of one type are written and read. -/
structure Codec (α : Type) where
  encode : α → Bytes
  decode : Bytes → Option α
  default : α
  decode_encode : ∀ a, decode (encode a) = some a

/-! ### Blocks of the guest -/

variable {A : Allocator}

/-- `wasm_msg_alloc`.  The size of the whole block stands before the data; null is 0. -/
def wasmMsgAlloc (size : Nat) : OnHeap A Nat := do
  let totalSize := (size + 4) % 2 ^ 32
  match ← OnHeap.alloc totalSize with
  | none => pure 0
  | some ptr => do
      store ptr (le32 totalSize)
      pure (ptr + 4)

/-- `wasm_msg_free`. -/
def wasmMsgFree (ptr : Nat) : OnHeap A Unit :=
  if ptr = 0 then pure ()
  else do
    let totalSize ← load (ptr - 4) 4
    OnHeap.dealloc ⟨ptr - 4, ofLe totalSize⟩

/-- `view_buffer`. -/
def viewBuffer (ptr : Nat) : OnHeap A Bytes := do
  let totalSize ← load (ptr - 4) 4
  load ptr (ofLe totalSize - 4)

/-- `consume_buffer`. -/
def consumeBuffer {R : Type} (ptr : Nat) (f : Bytes → OnHeap A R) : OnHeap A R := do
  let buf ← viewBuffer ptr
  let result ← f buf
  wasmMsgFree ptr
  pure result

/-- `transfer_buffer`. -/
def transferBuffer (buf : Bytes) : OnHeap A Nat := do
  let ptr ← wasmMsgAlloc buf.length
  if ptr = 0 then OnHeap.panic "transfer_buffer: failed to allocate memory"
  else do
    store ptr buf
    pure ptr

/-! ### Messages of the guest -/

/-- The result of `expect`. -/
def expect {R : Type} (message : String) : Option R → OnHeap A R
  | some r => pure r
  | none => OnHeap.panic message

/-- `Message::encode` to a vector, which holds less than `isize::MAX` bytes. -/
def encodeToVec (message : String) (bs : Bytes) : OnHeap A Bytes :=
  if bs.length < 2 ^ 31 then pure bs else OnHeap.panic message

/-- `consume_message`. -/
def consumeMessage {R : Type} (decode : Bytes → Option R) (ptr : Nat) : OnHeap A R :=
  if ptr = 0 then OnHeap.panic "consume_message: called with null pointer"
  else consumeBuffer ptr fun buf => expect "consume_message: failed to decode message" (decode buf)

/-- `transfer_message`. -/
def transferMessage (encoded : Bytes) : OnHeap A Nat := do
  let encoded ← encodeToVec "transfer_message: failed to encode message" encoded
  transferBuffer encoded

/-- `consume_request`. -/
def consumeRequest {T : Type} (codec : Codec T) (ptr : Nat) : OnHeap A T := do
  let request ← consumeMessage Request.decode ptr
  expect "consume_request: failed to decode request" (codec.decode request.data)

/-- `consume_response`. -/
def consumeResponse {T : Type} (codec : Codec T) (ptr : Nat) : OnHeap A (Except String T) := do
  let response ← consumeMessage Response.decode ptr
  match response.result with
  | some (.data data) => do
      let result ← expect "consume_response: failed to decode response" (codec.decode data)
      pure (.ok result)
  | some (.error e) => pure (.error e)
  | none => OnHeap.panic "consume_response: invalid response type"

/-- `transfer_request`. -/
def transferRequest {T : Type} (codec : Codec T) (request : T) : OnHeap A Nat := do
  let encoded ← encodeToVec "transfer_request: failed to encode request" (codec.encode request)
  transferMessage (Request.encode ⟨encoded⟩)

/-- `transfer_response`. -/
def transferResponse {T : Type} (codec : Codec T) : Except String T → OnHeap A Nat
  | .ok resp => do
      let encoded ← encodeToVec "transfer_response: failed to encode response" (codec.encode resp)
      transferMessage (Response.encode ⟨some (.data encoded)⟩)
  | .error e => transferMessage (Response.encode ⟨some (.error e)⟩)

/-- `call_sync_guest`.  The handler also keeps something between calls. -/
def callSyncGuest {Req Res K : Type} (reqCodec : Codec Req) (resCodec : Codec Res) (ptr : Nat)
    (handler : Req → OnHeap A (Except String Res × K)) : OnHeap A (Nat × K) := do
  let request ← (if ptr = 0 then pure reqCodec.default else consumeRequest reqCodec ptr)
  let result ← handler request
  let ptr ← transferResponse resCodec result.1
  pure (ptr, result.2)

/-- `call_sync_host`. -/
def callSyncHost {Req Res : Type} (reqCodec : Codec Req) (resCodec : Codec Res) (request : Req)
    (hostFunc : Nat → OnHeap A Nat) : OnHeap A (Except String Res) := do
  let inputPtr ← transferRequest reqCodec request
  let outputPtr ← hostFunc inputPtr
  if outputPtr = 0 then pure (.error "Host function returned null pointer")
  else consumeResponse resCodec outputPtr

/-! ### The hosts -/

inductive Sdk where
  | go | java | js | python
  deriving DecidableEq, Repr

/-- What a host makes of a response. -/
inductive Reply where
  | data (bs : Bytes)
  | failed (text : String)
  /-- There are no bytes, and the decoder throws. -/
  | undecodable
  deriving DecidableEq, Repr

namespace Sdk

/-- The pointer as the host takes it.  Only Go takes it for an unsigned number.  Above 2 GiB it is
negative for the others: Java and JS throw at once, Python counts from the end of the memory.  JS
looks before a block, so it throws at null too. -/
def address (sdk : Sdk) (ptr : Nat) : OnHeap A Unit :=
  match sdk with
  | go => pure ()
  | java => if 2 ^ 31 ≤ ptr then OnHeap.panic "out of bounds memory access" else pure ()
  | js =>
      if ptr = 0 ∨ 2 ^ 31 ≤ ptr then
        OnHeap.panic "RangeError: Offset is outside the bounds of the DataView"
      else pure ()
  | python => if 2 ^ 31 ≤ ptr then Eff.throw .misuse else pure ()

/-- `allocAndWrite` in Go, `transfer` in Java and JS, `_transfer` in Python.  JS writes through a
view of the block, whose size it reads. -/
def transfer (sdk : Sdk) (data : Bytes) : OnHeap A Nat := do
  let ptr ← wasmMsgAlloc (data.length % 2 ^ 32)
  sdk.address ptr
  if sdk = js then do
    let size ← load (ptr - 4) 4
    if ofLe size - 4 < data.length then OnHeap.panic "RangeError: offset is out of bounds"
    else do
      store ptr data
      pure ptr
  else do
    store ptr data
    pure ptr

/-- `readAndFree` in Go, `consume` in Java and JS, `_consume` in Python: a copy, then the block
is freed. -/
def consume (sdk : Sdk) (ptr : Nat) : OnHeap A Bytes := do
  sdk.address ptr
  let lenBytes ← load (ptr - 4) 4
  let data ← load ptr (ofLe lenBytes - 4)
  wasmMsgFree ptr
  pure data

/-- What is done with the response of a call.  Go, JS and Python take an empty error text for
none; JS then has no data either. -/
def read (sdk : Sdk) (response : Response) : Reply :=
  match sdk, response.result with
  | _, some (.data bs) => .data bs
  | java, some (.error e) => .failed e
  | go, some (.error e) => if e ≠ "" then .failed e else .data []
  | python, some (.error e) => if e ≠ "" then .failed ("WASM error: " ++ e) else .data []
  | js, some (.error e) => if e ≠ "" then .failed e else .undecodable
  | js, none => .undecodable
  | _, none => .data []

end Sdk

/-- The imported function: its messages, and its answer to the `n`-th call.  Answers are short
enough for the memory. -/
structure HostFn where
  Req : Type
  Res : Type
  reqCodec : Codec Req
  resCodec : Codec Res
  answer : Nat → Req → Res
  fits : ∀ n q, (resCodec.encode (answer n q)).length < 2 ^ 31

/-- What the import does with the pointer it is given, on its `n`-th call. -/
def HostFn.serve (host : HostFn) (sdk : Sdk) (n ptr : Nat) : OnHeap A Nat := do
  let bytes ← sdk.consume ptr
  let request ← expect "cannot parse invalid wire-format data" (Request.decode bytes)
  let message ← expect "cannot parse invalid wire-format data" (host.reqCodec.decode request.data)
  let response := host.resCodec.encode (host.answer n message)
  sdk.transfer (Response.encode ⟨some (.data response)⟩)

/-! ### Functions of the guest -/

/-- What a function of the guest does: it answers or panics, calls the host, and keeps, looks at
and gives up memory of its own. -/
inductive Body (Q S R : Type) where
  | done (result : Except String R)
  | panic (message : String)
  | host (request : Q) (next : Except String S → Body Q S R)
  | keep (bytes : Bytes) (next : Body Q S R)
  | look (i : Nat) (next : Bytes → Body Q S R)
  | release (i : Nat) (next : Body Q S R)

/-- What the guest has between calls: its own blocks, and how often it called the host. -/
structure Kept where
  own : List Extent
  hostCalls : Nat
  deriving DecidableEq

/-- The same, without a memory. -/
structure State where
  own : List Bytes
  hostCalls : Nat
  deriving DecidableEq

variable {R : Type}

/-- A function of the guest over its memory. -/
def Body.run (host : HostFn) (sdk : Sdk) :
    Body host.Req host.Res R → Kept → OnHeap A (Except String R × Kept)
  | .done result, kept => pure (result, kept)
  | .panic message, _ => OnHeap.panic message
  | .host request next, kept => do
      let result ← callSyncHost host.reqCodec host.resCodec request (host.serve sdk kept.hostCalls)
      (next result).run host sdk { kept with hostCalls := kept.hostCalls + 1 }
  | .keep bytes next, kept => do
      match ← OnHeap.alloc bytes.length with
      | none => OnHeap.panic "memory allocation failed"
      | some addr => do
          store addr bytes
          next.run host sdk { kept with own := ⟨addr, bytes.length⟩ :: kept.own }
  | .look i next, kept =>
      match kept.own[i]? with
      | none => (next []).run host sdk kept
      | some e => do
          let bytes ← load e.addr e.size
          (next bytes).run host sdk kept
  | .release i next, kept =>
      match kept.own[i]? with
      | none => next.run host sdk kept
      | some e => do
          OnHeap.dealloc e
          next.run host sdk { kept with own := kept.own.eraseIdx i }

/-- The same function, with its own memory a list of contents and the host's answers given. -/
def Body.direct (host : HostFn) :
    Body host.Req host.Res R → State → Except String (Except String R × State)
  | .done result, s => .ok (result, s)
  | .panic message, _ => .error message
  | .host request next, s =>
      (next (.ok (host.answer s.hostCalls request))).direct host
        { s with hostCalls := s.hostCalls + 1 }
  | .keep bytes next, s => next.direct host { s with own := bytes :: s.own }
  | .look i next, s => (next (s.own[i]?.getD [])).direct host s
  | .release i next, s => next.direct host { s with own := s.own.eraseIdx i }

/-! ### Calls -/

/-- A call of an exported function.  Without a request the pointer is null.  A request is short
enough for the memory. -/
structure Call (host : HostFn) where
  Req : Type
  Res : Type
  reqCodec : Codec Req
  resCodec : Codec Res
  body : Req → Body host.Req host.Res Res
  request : Option Req
  fits : ∀ r ∈ request, (reqCodec.encode r).length < 2 ^ 31

variable {host : HostFn}

/-- The pointer that the function is called with. -/
def Call.reqPtr (sdk : Sdk) (c : Call host) : OnHeap A Nat :=
  match c.request with
  | none => pure 0
  | some request => sdk.transfer (Request.encode ⟨c.reqCodec.encode request⟩)

/-- `WasmResolver.call` in Go; the other hosts have a method for each function, with the same
steps. -/
def Call.run (sdk : Sdk) (c : Call host) (kept : Kept) : OnHeap A (Reply × Kept) := do
  let reqPtr ← c.reqPtr sdk
  let (resPtr, kept) ← callSyncGuest c.reqCodec c.resCodec reqPtr fun request =>
    (c.body request).run host sdk kept
  if resPtr = 0 then pure (.data [], kept)
  else do
    let bytes ← sdk.consume resPtr
    let response ← expect "cannot parse invalid wire-format data" (Response.decode bytes)
    pure (sdk.read response, kept)

/-- The response that a result of the guest travels in. -/
def respond {Res : Type} (codec : Codec Res) : Except String Res → Response
  | .ok resp => ⟨some (.data (codec.encode resp))⟩
  | .error e => ⟨some (.error e)⟩

def Call.direct (sdk : Sdk) (c : Call host) (s : State) : Except String (Reply × State) :=
  ((c.body (c.request.getD c.reqCodec.default)).direct host s).map fun result =>
    (sdk.read (respond c.resCodec result.1), result.2)

/-- A host's calls, one after the other. -/
def serve (sdk : Sdk) : List (Call host) → Kept → OnHeap A (List Reply × Kept)
  | [], kept => pure ([], kept)
  | c :: cs, kept => do
      let (reply, kept) ← c.run sdk kept
      let (replies, kept) ← serve sdk cs kept
      pure (reply :: replies, kept)

def serveDirect (sdk : Sdk) : List (Call host) → State → Except String (List Reply × State)
  | [], s => .ok ([], s)
  | c :: cs, s =>
      (c.direct sdk s).bind fun result =>
        (serveDirect sdk cs result.2).map fun rest => (result.1 :: rest.1, rest.2)

end WasmMsg

end ConfidenceResolver
