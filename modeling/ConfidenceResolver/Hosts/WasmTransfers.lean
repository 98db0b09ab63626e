import ConfidenceResolver.Hosts.WasmMessages

/-!
# Hosts — calls through memory are plain calls

A run of a host's calls over the guest's memory is compared with the run of the same functions
without a memory.

* `message p bs`: the block of a message.
* `Excused`: what may stop a run besides the guest's own panics.
* `transferBuffer_ensures`, `consumeBuffer_ensures`, …: a block more, a block less.
* `Body.run_ends`, `Call.run_ends`: one function, one call.
* `calls_through_memory`: every sequence of calls; the blocks that are live afterwards are those
  the guest keeps.
* `replies_tell_results`: what the host's caller can tell from the replies.
-/

namespace ConfidenceResolver

namespace WasmMsg

open OnHeap (load store)

variable {A : Allocator} {R : Type}

/-- The block of a message at the pointer `p + 4`. -/
def message (p : Nat) (bs : Bytes) : Block := ⟨p, le32 (bs.length + 4) ++ bs⟩

/-- The allocator's last answer, at which a host or the guest may stop: that there is no room, or
a block above 2 GiB, which only Go can address. -/
def Scarce (sdk : Sdk) (h : Heap A) : Prop :=
  h.answers.head? = some none ∨
    ∃ p, h.answers.head? = some (some p) ∧ 2 ^ 31 ≤ p + 4 ∧ sdk ≠ .go

/-- What may stop a run, and with which heap: a message above 2 GiB, or the want of memory at the
last allocation.  A host that does not look at the pointer it is given then writes where no block
is; JS never does. -/
inductive Excused (sdk : Sdk) : Stop → Heap A → Prop where
  | tooLong (what : String)
      (h : what = "request" ∨ what = "response" ∨ what = "message") (heap : Heap A) :
      Excused sdk (.panic ("transfer_" ++ what ++ ": failed to encode " ++ what)) heap
  | memory (stop : Stop) (heap : Heap A) (hscarce : Scarce sdk heap)
      (hjs : stop = .misuse → sdk ≠ .js) : Excused sdk stop heap

theorem Excused.panic {sdk : Sdk} {h : Heap A} (m : String) (hscarce : Scarce sdk h) :
    Excused sdk (.panic m) h :=
  .memory _ h hscarce fun hmisuse => by cases hmisuse

variable {sdk : Sdk} {h : Heap A} {blocks : List Block}

/-! ### Blocks -/

/-- The size stands before the data of a message. -/
theorem load_size {c : Block} {p : Nat} (size back : Bytes) (hh : h.Holds blocks)
    (hc : c ∈ blocks) (hp : c.addr = p) (hbytes : c.bytes = size ++ back)
    (hsize : size.length = 4) :
    load p 4 h = (.ok size, h) := by
  have hload := hh.load hc [] size back (by simpa using hbytes)
  simpa [hsize, hp] using hload

theorem wasmMsgAlloc_ensures (hh : h.Holds blocks) {n : Nat} (hn : n + 4 < 2 ^ 32) :
    (wasmMsgAlloc n).Ensures (Excused sdk) (fun ptr h' =>
      (ptr = 0 ∧ h'.answers.head? = some none ∧ h'.Holds blocks) ∨
        ∃ p raw, ptr = p + 4 ∧ raw.length = n ∧ h'.answers.head? = some (some p) ∧
          h'.Holds (⟨p, le32 (n + 4) ++ raw⟩ :: blocks)) h := by
  rw [wasmMsgAlloc, Nat.mod_eq_of_lt hn]
  obtain ⟨_ | p, h', halloc, hanswers, hh'⟩ := hh.alloc (n + 4)
  · exact .after halloc (.pure (.inl ⟨rfl, by rw [hanswers, List.head?_cons], hh'⟩))
  · -- The new block has any bytes; the first four become its size.
    simp only [Nat.add_comm n 4, Memory.read_add] at hh'
    obtain ⟨h'', hstore, hh''⟩ := hh'.store [] (h.mem.read p 4) (h.mem.read (p + 4) n) rfl
      (show (le32 (n + 4)).length = _ by simp)
    have hlast : h''.answers.head? = some (some p) := by
      rw [OnHeap.answers_store hstore, hanswers, List.head?_cons]
    exact .after halloc (.after hstore (.pure (.inr ⟨p, _, rfl, by simp, hlast, hh''⟩)))

/-- The data of a message is written behind its size. -/
theorem store_data {p : Nat} {raw bs : Bytes} (hlength : raw.length = bs.length)
    (hh : h.Holds (⟨p, le32 (bs.length + 4) ++ raw⟩ :: blocks)) :
    ∃ h', store (p + 4) bs h = (.ok (), h') ∧ h'.Holds (message p bs :: blocks) := by
  have hstore := hh.store (le32 (bs.length + 4)) raw [] (by simp) hlength.symm
  simpa [message] using hstore

theorem load_data {p : Nat} {bs : Bytes} (hlen : bs.length + 4 < 2 ^ 32)
    (hh : h.Holds (message p bs :: blocks)) :
    load p 4 h = (.ok (le32 (bs.length + 4)), h) ∧
      load (p + 4) (ofLe (le32 (bs.length + 4)) - 4) h = (.ok bs, h) := by
  refine ⟨load_size _ bs hh List.mem_cons_self rfl rfl rfl, ?_⟩
  have hload := hh.load List.mem_cons_self (le32 (bs.length + 4)) bs [] (by simp [message])
  rw [ofLe_le32 hlen, Nat.add_sub_cancel]
  simpa [message] using hload

theorem wasmMsgFree_eq {p : Nat} {bs : Bytes} (hlen : bs.length + 4 < 2 ^ 32)
    (hh : h.Holds (message p bs :: blocks)) :
    ∃ h', wasmMsgFree (p + 4) h = (.ok (), h') ∧ h'.Holds blocks := by
  obtain ⟨h', hfree, hh'⟩ := hh.dealloc
  refine ⟨h', ?_, hh'⟩
  have hextent : (message p bs).extent = ⟨p, bs.length + 4⟩ := by
    simp [message, Block.extent, Nat.add_comm]
  rw [wasmMsgFree, if_neg (Nat.succ_ne_zero _), Nat.add_sub_cancel,
    Eff.bind_of_ok (load_data hlen hh).1, ofLe_le32 hlen, ← hextent, hfree]

theorem viewBuffer_eq {p : Nat} {bs : Bytes} (hlen : bs.length + 4 < 2 ^ 32)
    (hh : h.Holds (message p bs :: blocks)) : viewBuffer (p + 4) h = (.ok bs, h) := by
  obtain ⟨hsize, hdata⟩ := load_data hlen hh
  rw [viewBuffer, Nat.add_sub_cancel, Eff.bind_of_ok hsize, hdata]

/-! ### The guest's messages -/

theorem consumeMessage_ensures {decode : Bytes → Option R} {p : Nat} {bs : Bytes} {r : R}
    (hlen : bs.length + 4 < 2 ^ 32) (hh : h.Holds (message p bs :: blocks))
    (hdecode : decode bs = some r) :
    (consumeMessage decode (p + 4)).Ensures (Excused sdk)
      (fun a h' => a = r ∧ h'.Holds blocks) h := by
  obtain ⟨h', hfree, hh'⟩ := wasmMsgFree_eq hlen hh
  rw [consumeMessage, if_neg (Nat.succ_ne_zero _), consumeBuffer]
  have hread : expect "consume_message: failed to decode message" (decode bs) h = (.ok r, h) := by
    rw [hdecode]; rfl
  exact .after (viewBuffer_eq hlen hh) (.after hread (.after hfree (.pure ⟨rfl, hh'⟩)))

theorem encodeToVec_ensures (what : String)
    (hwhat : what = "request" ∨ what = "response" ∨ what = "message") (bs : Bytes) :
    (encodeToVec ("transfer_" ++ what ++ ": failed to encode " ++ what) bs).Ensures (Excused sdk)
      (fun a s => a = bs ∧ bs.length < 2 ^ 31 ∧ s = h) h := by
  rw [encodeToVec]
  split
  · next hlen => exact .pure ⟨rfl, hlen, rfl⟩
  · exact .throw (.tooLong what hwhat _)

theorem transferBuffer_ensures (hh : h.Holds blocks) {bs : Bytes} (hlen : bs.length + 4 < 2 ^ 32) :
    (transferBuffer bs).Ensures (Excused sdk)
      (fun ptr h' => ∃ p, ptr = p + 4 ∧ h'.answers.head? = some (some p) ∧
        h'.Holds (message p bs :: blocks)) h := by
  rw [transferBuffer]
  refine .bind (wasmMsgAlloc_ensures hh hlen) ?_
  rintro _ h' (⟨rfl, hnone, -⟩ | ⟨p, raw, rfl, hraw, hlast, hh'⟩)
  · exact .throw (.panic _ (.inl hnone))
  · obtain ⟨h'', hstore, hh''⟩ := store_data hraw hh'
    rw [if_neg (Nat.succ_ne_zero _)]
    exact .after hstore (.pure ⟨p, rfl, by rw [OnHeap.answers_store hstore, hlast], hh''⟩)

theorem transferMessage_ensures (hh : h.Holds blocks) (bs : Bytes) :
    (transferMessage bs).Ensures (Excused sdk)
      (fun ptr h' => ∃ p, ptr = p + 4 ∧ bs.length < 2 ^ 31 ∧ h'.answers.head? = some (some p) ∧
        h'.Holds (message p bs :: blocks)) h := by
  rw [transferMessage]
  refine .bind (encodeToVec_ensures "message" (by simp) bs) ?_
  rintro encoded s ⟨rfl, hlen, rfl⟩
  refine (transferBuffer_ensures hh (by omega)).mono (fun _ _ he => he) ?_
  rintro _ _ ⟨p, rfl, hlast, hh'⟩
  exact ⟨p, rfl, hlen, hlast, hh'⟩

/-! ### Envelopes in memory -/

theorem Request.length_encode (data : Bytes) :
    (Request.encode ⟨data⟩).length ≤ data.length + 20 := by
  have hfield := (Wire.length_encodeField_len 1 data).2
  rw [Request.encode]
  split
  · simp [Wire.encodeFields]
  · simpa [Wire.encodeFields] using hfield

theorem Response.length_encode_data (bs : Bytes) :
    bs.length ≤ (Response.encode ⟨some (.data bs)⟩).length ∧
      (Response.encode ⟨some (.data bs)⟩).length ≤ bs.length + 20 := by
  simpa [Response.encode, Wire.encodeFields] using Wire.length_encodeField_len 1 bs

theorem Response.length_encode_error (text : String) :
    (utf8 text).length ≤ (Response.encode ⟨some (.error text)⟩).length := by
  simpa [Response.encode, Wire.encodeFields] using (Wire.length_encodeField_len 2 (utf8 text)).1

/-- A response that is short on the wire fits its envelope. -/
theorem respond_fits {T : Type} (codec : Codec T) (r : Except String T)
    (h : (respond codec r).encode.length < 2 ^ 31) : (respond codec r).Fits := by
  cases r with
  | ok resp =>
      have hlen := (Response.length_encode_data (codec.encode resp)).1
      simp only [respond, Response.Fits] at h ⊢
      omega
  | error e =>
      have hlen := Response.length_encode_error e
      simp only [respond, Response.Fits] at h ⊢
      omega

section Guest

variable {T : Type} (codec : Codec T)

theorem consumeRequest_ensures {request : T} {p : Nat}
    (hlen : (codec.encode request).length < 2 ^ 31)
    (hh : h.Holds (message p (Request.encode ⟨codec.encode request⟩) :: blocks)) :
    (consumeRequest codec (p + 4)).Ensures (Excused sdk)
      (fun a h' => a = request ∧ h'.Holds blocks) h := by
  have hwire := Request.length_encode (codec.encode request)
  have hdecode := Request.decode_encode (r := ⟨codec.encode request⟩) (by simp; omega)
  rw [consumeRequest]
  refine .bind (consumeMessage_ensures (by omega) hh hdecode) ?_
  rintro _ h' ⟨rfl, hh'⟩
  rw [codec.decode_encode]
  exact .pure ⟨rfl, hh'⟩

theorem transferRequest_ensures (hh : h.Holds blocks) (request : T) :
    (transferRequest codec request).Ensures (Excused sdk)
      (fun ptr h' => ∃ p, ptr = p + 4 ∧ (codec.encode request).length < 2 ^ 31 ∧
        h'.answers.head? = some (some p) ∧
        h'.Holds (message p (Request.encode ⟨codec.encode request⟩) :: blocks)) h := by
  rw [transferRequest]
  refine .bind (encodeToVec_ensures "request" (by simp) _) ?_
  rintro encoded s ⟨rfl, hlen, rfl⟩
  refine (transferMessage_ensures hh _).mono (fun _ _ he => he) ?_
  rintro _ _ ⟨p, rfl, -, hlast, hh'⟩
  exact ⟨p, rfl, hlen, hlast, hh'⟩

theorem transferResponse_ensures (hh : h.Holds blocks) (result : Except String T) :
    (transferResponse codec result).Ensures (Excused sdk)
      (fun ptr h' => ∃ p, ptr = p + 4 ∧ (respond codec result).encode.length < 2 ^ 31 ∧
        h'.answers.head? = some (some p) ∧
        h'.Holds (message p (respond codec result).encode :: blocks)) h := by
  cases result with
  | ok resp =>
      rw [transferResponse]
      refine .bind (encodeToVec_ensures "response" (by simp) _) ?_
      rintro encoded s ⟨rfl, -, rfl⟩
      exact transferMessage_ensures hh _
  | error e => exact transferMessage_ensures hh _

theorem consumeResponse_ensures {result : Except String T} {p : Nat}
    (hlen : (respond codec result).encode.length + 4 < 2 ^ 32)
    (hfits : (respond codec result).Fits)
    (hh : h.Holds (message p (respond codec result).encode :: blocks)) :
    (consumeResponse codec (p + 4)).Ensures (Excused sdk)
      (fun a h' => a = result ∧ h'.Holds blocks) h := by
  rw [consumeResponse]
  refine .bind (consumeMessage_ensures hlen hh (Response.decode_encode hfits)) ?_
  rintro _ h' ⟨rfl, hh'⟩
  cases result with
  | ok resp =>
      have hread : expect "consume_response: failed to decode response"
          (codec.decode (codec.encode resp)) h' = (.ok resp, h') := by
        rw [codec.decode_encode]; rfl
      exact .after hread (.pure ⟨rfl, hh'⟩)
  | error e => exact .pure ⟨rfl, hh'⟩

end Guest

/-! ### The hosts' messages -/

/-- A host that looks at the pointer it was last given throws at one it cannot use; JS alone looks
for null. -/
theorem Sdk.address_ensures {answer : Option Nat} (hlast : h.answers.head? = some answer) :
    (sdk.address ((answer.map (· + 4)).getD 0)).Ensures (Excused sdk)
      (fun _ s => s = h ∧ (sdk = .js → answer.isSome)) h := by
  have hscarce (hptr : (answer.map (· + 4)).getD 0 = 0 ∨ 2 ^ 31 ≤ (answer.map (· + 4)).getD 0)
      (hgo : sdk ≠ .go) : Scarce sdk h := by
    cases answer with
    | none => exact .inl hlast
    | some p => exact .inr ⟨p, hlast, hptr.resolve_left (by simp), hgo⟩
  cases sdk with
  | go => exact .pure ⟨rfl, by simp⟩
  | java =>
      rw [Sdk.address]
      split
      · next hlarge => exact .throw (.panic _ (hscarce (.inr hlarge) (by simp)))
      · exact .pure ⟨rfl, by simp⟩
  | js =>
      rw [Sdk.address]
      split
      · next hbad => exact .throw (.panic _ (hscarce hbad (by simp)))
      · next hgood =>
          refine .pure ⟨rfl, fun _ => ?_⟩
          cases answer with
          | none => exact absurd (.inl rfl) hgood
          | some p => rfl
  | python =>
      rw [Sdk.address]
      split
      · next hlarge =>
          exact .throw (.memory _ h (hscarce (.inr hlarge) (by simp)) fun _ => by simp)
      · exact .pure ⟨rfl, by simp⟩

theorem Sdk.transfer_ensures (hh : h.Holds blocks) {data : Bytes}
    (hlen : data.length + 4 < 2 ^ 32) :
    (sdk.transfer data).Ensures (Excused sdk)
      (fun ptr h' => ∃ p, ptr = p + 4 ∧ h'.answers.head? = some (some p) ∧
        h'.Holds (message p data :: blocks)) h := by
  rw [Sdk.transfer, Nat.mod_eq_of_lt (by omega)]
  refine .bind (wasmMsgAlloc_ensures hh hlen) ?_
  rintro _ h' (⟨rfl, hnone, hh'⟩ | ⟨p, raw, rfl, hraw, hlast, hh'⟩)
  · -- There was no room; who does not throw writes at the address 0.
    refine .bind (Sdk.address_ensures hnone) ?_
    rintro _ s ⟨rfl, hsome⟩
    have hjs : sdk ≠ .js := fun hjs => by simpa using hsome hjs
    have hstray : store 0 data s = (.error .misuse, s) := by
      rw [store, hh'.not_covered_zero]
      rfl
    rw [if_neg hjs, Eff.Ensures, Eff.bind_of_error hstray]
    exact .memory _ s (.inl hnone) fun _ => hjs
  · obtain ⟨h'', hstore, hh''⟩ := store_data hraw hh'
    have hlast' : h''.answers.head? = some (some p) := by rw [OnHeap.answers_store hstore, hlast]
    have hsize := load_size (le32 (data.length + 4)) raw hh' List.mem_cons_self rfl rfl rfl
    refine .bind (Sdk.address_ensures hlast) ?_
    rintro _ s ⟨rfl, -⟩
    by_cases hjs : sdk = .js
    · rw [if_pos hjs, Nat.add_sub_cancel]
      refine .after hsize ?_
      rw [ofLe_le32 hlen, Nat.add_sub_cancel, if_neg (lt_irrefl _)]
      exact .after hstore (.pure ⟨p, rfl, hlast', hh''⟩)
    · rw [if_neg hjs]
      exact .after hstore (.pure ⟨p, rfl, hlast', hh''⟩)

theorem Sdk.consume_ensures {p : Nat} {bs : Bytes} (hlen : bs.length + 4 < 2 ^ 32)
    (hlast : h.answers.head? = some (some p)) (hh : h.Holds (message p bs :: blocks)) :
    (sdk.consume (p + 4)).Ensures (Excused sdk) (fun a h' => a = bs ∧ h'.Holds blocks) h := by
  rw [Sdk.consume]
  refine .bind (Sdk.address_ensures hlast) ?_
  rintro _ s ⟨rfl, -⟩
  obtain ⟨hsize, hdata⟩ := load_data hlen hh
  obtain ⟨h', hfree, hh'⟩ := wasmMsgFree_eq hlen hh
  rw [Nat.add_sub_cancel]
  exact .after hsize (.after hdata (.after hfree (.pure ⟨rfl, hh'⟩)))

variable (host : HostFn)

/-- The import frees the request it was given and leaves its response. -/
theorem HostFn.serve_ensures {n p : Nat} {q : host.Req}
    (hlen : (host.reqCodec.encode q).length < 2 ^ 31) (hlast : h.answers.head? = some (some p))
    (hh : h.Holds (message p (Request.encode ⟨host.reqCodec.encode q⟩) :: blocks)) :
    (host.serve sdk n (p + 4)).Ensures (Excused sdk)
      (fun ptr h' => ∃ p', ptr = p' + 4 ∧
        h'.Holds
          (message p' (respond host.resCodec (.ok (host.answer n q))).encode :: blocks)) h := by
  have hwire := Request.length_encode (host.reqCodec.encode q)
  have hdecode := Request.decode_encode (r := ⟨host.reqCodec.encode q⟩) (by simp; omega)
  have hanswer := (Response.length_encode_data (host.resCodec.encode (host.answer n q))).2
  have hfits := host.fits n q
  rw [HostFn.serve]
  refine .bind (Sdk.consume_ensures (by omega) hlast hh) ?_
  rintro _ h' ⟨rfl, hh'⟩
  rw [hdecode]
  refine .after rfl ?_
  rw [host.reqCodec.decode_encode]
  refine .after rfl ?_
  refine (Sdk.transfer_ensures hh' (by omega)).mono (fun _ _ he => he) ?_
  rintro _ _ ⟨p', rfl, -, hh''⟩
  exact ⟨p', rfl, hh''⟩

/-- The guest's call of the host gives the host's answer, and leaves no message. -/
theorem callSyncHost_ensures (hh : h.Holds blocks) (n : Nat) (q : host.Req) :
    (callSyncHost host.reqCodec host.resCodec q (host.serve sdk n)).Ensures (Excused sdk)
      (fun a h' => a = .ok (host.answer n q) ∧ h'.Holds blocks) h := by
  rw [callSyncHost]
  refine .bind (transferRequest_ensures host.reqCodec hh q) ?_
  rintro _ h' ⟨p, rfl, hlen, hlast, hh'⟩
  refine .bind (HostFn.serve_ensures host hlen hlast hh') ?_
  rintro _ h'' ⟨p', rfl, hh''⟩
  have hanswer := (Response.length_encode_data (host.resCodec.encode (host.answer n q))).2
  have hfits := host.fits n q
  rw [if_neg (Nat.succ_ne_zero _)]
  refine consumeResponse_ensures host.resCodec ?_ ?_ hh''
  · simp only [respond]; omega
  · simp only [respond, Response.Fits]; omega

/-! ### Functions of the guest -/

/-- How a run over the memory ends, against the run without: with the same result, and exactly the
blocks that the guest keeps; or with the guest's own panic, or excused. -/
def Ends {α : Type} (sdk : Sdk) (direct : Except String (α × State)) (x : OnHeap A (α × Kept))
    (h : Heap A) : Prop :=
  x.Ensures (fun stop h' => Excused sdk stop h' ∨ ∃ m, stop = .panic m ∧ direct = .error m)
    (fun result h' => ∃ blocks, result.2.own = blocks.map Block.extent ∧ h'.Holds blocks ∧
      direct = .ok (result.1, ⟨blocks.map Block.bytes, result.2.hostCalls⟩)) h

theorem Body.run_ends (sdk : Sdk) (body : Body host.Req host.Res R) (hh : h.Holds blocks)
    (n : Nat) :
    Ends sdk (body.direct host ⟨blocks.map Block.bytes, n⟩)
      (body.run host sdk ⟨blocks.map Block.extent, n⟩) h := by
  induction body generalizing h blocks n with
  | done result => exact .pure ⟨blocks, rfl, hh, rfl⟩
  | panic m => exact .throw (.inr ⟨m, rfl, rfl⟩)
  | host q next ih =>
      rw [Body.run, Body.direct]
      refine .bind ((callSyncHost_ensures host hh n q).mono (fun _ _ he => .inl he)
        fun _ _ hq => hq) ?_
      rintro _ h' ⟨rfl, hh'⟩
      exact ih _ hh' (n + 1)
  | keep bytes next ih =>
      rw [Body.run, Body.direct]
      -- the allocation fails, which the heap records, or gives a block that the store fills
      obtain ⟨_ | a, h', halloc, hanswers, hh'⟩ := hh.alloc bytes.length
      · exact .after halloc (.throw (.inl (.panic _ (.inl (by rw [hanswers, List.head?_cons])))))
      · obtain ⟨h'', hstore, hh''⟩ := hh'.store [] (h.mem.read a bytes.length) []
          (by simp) (show bytes.length = _ by simp)
        refine .after halloc (.after hstore ?_)
        have hkept : h''.Holds (⟨a, bytes⟩ :: blocks) := by simpa using hh''
        exact ih hkept n
  | look i next ih =>
      rw [Body.run, Body.direct]
      rcases hown : blocks[i]? with _ | b
      · simpa [hown] using ih [] hh n
      · have hmem : b ∈ blocks := List.mem_of_getElem? hown
        have hload := hh.load hmem [] b.bytes [] (by simp)
        have hrun := ih b.bytes hh n
        simp only [List.getElem?_map, hown, Option.map_some, Option.getD_some]
        exact .after (by simpa [Block.extent] using hload) hrun
  | release i next ih =>
      rw [Body.run, Body.direct]
      rcases hown : blocks[i]? with _ | b
      · have hlength := List.getElem?_eq_none_iff.mp hown
        have hrun := ih hh n
        simpa [hown, List.eraseIdx_of_length_le, hlength] using hrun
      · obtain ⟨hi, rfl⟩ := List.getElem?_eq_some_iff.mp hown
        obtain ⟨h', hfree, hh'⟩ := (hh.perm (List.getElem_cons_eraseIdx_perm hi).symm).dealloc
        simp only [List.getElem?_map, hown, Option.map_some, List.eraseIdx_map]
        exact .after hfree (ih hh' n)

/-! ### Calls -/

variable {host}

/-- The pointer a call passes: null without a request, else that of the request's message. -/
def Passes (c : Call host) (blocks : List Block) (ptr : Nat) (h : Heap A) : Prop :=
  (ptr = 0 ∧ c.request = none ∧ h.Holds blocks) ∨ ∃ p request, ptr = p + 4 ∧
    c.request = some request ∧
      h.Holds (message p (Request.encode ⟨c.reqCodec.encode request⟩) :: blocks)

theorem Call.reqPtr_ensures (c : Call host) (hh : h.Holds blocks) :
    (c.reqPtr sdk).Ensures (Excused sdk) (Passes c blocks) h := by
  rw [Call.reqPtr]
  rcases hrequest : c.request with _ | request
  · exact .pure (.inl ⟨rfl, hrequest, hh⟩)
  · have hwire := Request.length_encode (c.reqCodec.encode request)
    have hfits := c.fits request hrequest
    refine (Sdk.transfer_ensures hh (by omega)).mono (fun _ _ he => he) ?_
    rintro _ _ ⟨p, rfl, -, hh'⟩
    exact .inr ⟨p, request, rfl, hrequest, hh'⟩

/-- The function starts on its request, and the request's message is gone. -/
theorem Call.request_ensures (c : Call host) {ptr : Nat} (hp : Passes c blocks ptr h) :
    (if ptr = 0 then pure c.reqCodec.default else consumeRequest c.reqCodec ptr).Ensures
      (Excused sdk)
      (fun a h' => a = c.request.getD c.reqCodec.default ∧ h'.Holds blocks) h := by
  rcases hp with ⟨rfl, hrequest, hh⟩ | ⟨p, request, rfl, hrequest, hh⟩
  · rw [if_pos rfl, hrequest]
    exact .pure ⟨rfl, hh⟩
  · rw [if_neg (Nat.succ_ne_zero _), hrequest]
    exact consumeRequest_ensures c.reqCodec (c.fits request hrequest) hh

theorem Call.run_ends (c : Call host) (hh : h.Holds blocks) (n : Nat) :
    Ends sdk (c.direct sdk ⟨blocks.map Block.bytes, n⟩)
      (c.run sdk ⟨blocks.map Block.extent, n⟩) h := by
  rw [Call.run, Call.direct]
  refine .bind ((c.reqPtr_ensures hh).mono (fun _ _ he => .inl he) fun _ _ hq => hq) ?_
  intro ptr h₁ hp
  have hrun := fun (h₂ : Heap A) (hh₂ : h₂.Holds blocks) =>
    (c.body (c.request.getD c.reqCodec.default)).run_ends host sdk hh₂ n
  revert hrun
  generalize ((c.body (c.request.getD c.reqCodec.default)).direct host
    ⟨blocks.map Block.bytes, n⟩) = direct
  intro hrun
  rw [callSyncGuest]
  -- The function runs with no message in the memory, and leaves what it keeps.
  refine .bind (P := fun result h' => ∃ blocks' p r, result.1 = p + 4 ∧
    result.2.own = blocks'.map Block.extent ∧ (respond c.resCodec r).encode.length < 2 ^ 31 ∧
    h'.answers.head? = some (some p) ∧
    h'.Holds (message p (respond c.resCodec r).encode :: blocks') ∧
    direct = .ok (r, ⟨blocks'.map Block.bytes, result.2.hostCalls⟩)) ?_ ?_
  · refine .bind ((c.request_ensures hp).mono (fun _ _ he => .inl he) fun _ _ hq => hq) ?_
    rintro _ h₂ ⟨rfl, hh₂⟩
    refine .bind ((hrun h₂ hh₂).mono ?_ fun _ _ hq => hq) ?_
    · rintro stop _ (hexcused | ⟨m, rfl, hpanic⟩)
      · exact .inl hexcused
      · exact .inr ⟨m, rfl, by rw [hpanic]; rfl⟩
    · rintro ⟨r, kept⟩ h₃ ⟨blocks', hown, hh₃, hdirect⟩
      refine .bind ((transferResponse_ensures c.resCodec hh₃ r).mono (fun _ _ he => .inl he)
        fun _ _ hq => hq) ?_
      rintro _ h₄ ⟨p, rfl, hlen, hlast, hh₄⟩
      exact .pure ⟨blocks', p, r, rfl, hown, hlen, hlast, hh₄, hdirect⟩
  · rintro ⟨_, kept⟩ h₂ ⟨blocks', p, r, rfl, hown, hlen, hlast, hh₂, rfl⟩
    simp only [Nat.succ_ne_zero, if_false]
    refine .bind ((Sdk.consume_ensures (by omega) hlast hh₂).mono (fun _ _ he => .inl he)
      fun _ _ hq => hq) ?_
    rintro _ h₃ ⟨rfl, hh₃⟩
    rw [Response.decode_encode (respond_fits c.resCodec r hlen)]
    exact .after rfl (.pure ⟨blocks', hown, hh₃, rfl⟩)

theorem serve_ends (sdk : Sdk) (cs : List (Call host)) (h : Heap A) (blocks : List Block)
    (hh : h.Holds blocks) (n : Nat) :
    Ends sdk (serveDirect sdk cs ⟨blocks.map Block.bytes, n⟩)
      (serve sdk cs ⟨blocks.map Block.extent, n⟩) h := by
  induction cs generalizing h blocks n with
  | nil => exact .pure ⟨blocks, rfl, hh, rfl⟩
  | cons c cs ih =>
      rw [serve, serveDirect]
      refine .bind ((c.run_ends hh n).mono ?_ fun _ _ hq => hq) ?_
      · rintro stop _ (hexcused | ⟨m, rfl, hpanic⟩)
        · exact .inl hexcused
        · exact .inr ⟨m, rfl, by rw [hpanic]; rfl⟩
      · rintro ⟨reply, own, calls⟩ h₁ ⟨blocks₁, rfl, hh₁, hdirect⟩
        rw [hdirect]
        refine .bind ((ih h₁ blocks₁ hh₁ calls).mono ?_ fun _ _ hq => hq) ?_
        · rintro stop _ (hexcused | ⟨m, rfl, hpanic⟩)
          · exact .inl hexcused
          · exact .inr ⟨m, rfl, by simp [Except.bind, Except.map, hpanic]⟩
        · rintro ⟨replies, kept⟩ h₂ ⟨blocks₂, hown, hh₂, hrest⟩
          exact .pure ⟨blocks₂, hown, hh₂, by simp [Except.bind, Except.map, hrest]⟩

/-- The calls over the memory, from a heap whose blocks are the guest's own, end with the replies
of the same calls without a memory, and the blocks that are live are again the guest's own, with
their contents.  They stop early only where the functions themselves panic, or excused: by a
message above 2 GiB, or with the last allocation of the run scarce. -/
structure Plain (sdk : Sdk) (cs : List (Call host)) (h : Heap A) (blocks : List Block) (n : Nat) :
    Prop where
  ends : ∀ replies kept h',
    serve sdk cs ⟨blocks.map Block.extent, n⟩ h.unasked = (.ok (replies, kept), h') →
      ∃ blocks', kept.own = blocks'.map Block.extent ∧ h'.Holds blocks' ∧
        serveDirect sdk cs ⟨blocks.map Block.bytes, n⟩ =
          .ok (replies, ⟨blocks'.map Block.bytes, kept.hostCalls⟩)
  stops : ∀ stop h', serve sdk cs ⟨blocks.map Block.extent, n⟩ h.unasked = (.error stop, h') →
    Excused sdk stop h' ∨
      ∃ m, stop = .panic m ∧ serveDirect sdk cs ⟨blocks.map Block.bytes, n⟩ = .error m

/-- **Calls through memory are plain calls**, for any sequence of calls of any functions. -/
theorem calls_through_memory (sdk : Sdk) (cs : List (Call host)) (h : Heap A)
    (blocks : List Block) (hh : h.Holds blocks) (n : Nat) : Plain sdk cs h blocks n := by
  have hends := serve_ends sdk cs h.unasked blocks hh.unasked n
  rw [Ends, Eff.Ensures] at hends
  constructor
  · intro replies kept h' hrun
    simpa only [hrun] using hends
  · intro stop h' hrun
    simpa only [hrun] using hends

/-! ### Replies -/

/-- The results of the functions, their payloads encoded. -/
def outcomes : List (Call host) → State → Except String (List (Except String Bytes) × State)
  | [], s => .ok ([], s)
  | c :: cs, s =>
      ((c.body (c.request.getD c.reqCodec.default)).direct host s).bind fun result =>
        (outcomes cs result.2).map fun rest =>
          (result.1.map c.resCodec.encode :: rest.1, rest.2)

/-- A result as the host's caller should see it.  Python puts its own words before the text. -/
def Sdk.tell (sdk : Sdk) : Except String Bytes → Reply
  | .ok bs => .data bs
  | .error e => .failed (if sdk = .python then "WASM error: " ++ e else e)

/-- What the host makes of a result on its way. -/
def Sdk.receive (sdk : Sdk) (result : Except String Bytes) : Reply :=
  sdk.read ⟨some (match result with
    | .ok bs => .data bs
    | .error e => .error e)⟩

theorem Sdk.receive_respond {T : Type} (sdk : Sdk) (codec : Codec T) (r : Except String T) :
    sdk.read (respond codec r) = sdk.receive (r.map codec.encode) := by
  cases r <;> rfl

/-- Only Java tells an error without a text from data. -/
theorem Sdk.receive_eq_tell_iff (sdk : Sdk) (result : Except String Bytes) :
    sdk.receive result = sdk.tell result ↔ sdk = .java ∨ result ≠ .error "" := by
  cases result with
  | ok bs => cases sdk <;> simp [Sdk.receive, Sdk.read, Sdk.tell]
  | error e =>
      by_cases hempty : e = ""
      · cases sdk <;> simp [Sdk.receive, Sdk.read, Sdk.tell, hempty]
      · cases sdk <;> simp [Sdk.receive, Sdk.read, Sdk.tell, hempty]

theorem serveDirect_eq_outcomes (sdk : Sdk) (cs : List (Call host)) (s : State) :
    serveDirect sdk cs s =
      (outcomes cs s).map fun done => (done.1.map sdk.receive, done.2) := by
  induction cs generalizing s with
  | nil => rfl
  | cons c cs ih =>
      rw [serveDirect, outcomes, Call.direct]
      rcases (c.body (c.request.getD c.reqCodec.default)).direct host s with m | ⟨r, s'⟩
      · rfl
      · simp only [Except.map, Except.bind, ih]
        rcases outcomes cs s' with m | ⟨results, s''⟩
        · rfl
        · simp [Sdk.receive_respond, Except.map]

/-- **What replies tell.**  In a run that ends, the replies are the functions' results, errors
told from data, if and only if the host is Java or no function answers with an empty text. -/
theorem replies_tell_results (sdk : Sdk) (cs : List (Call host)) (h h' : Heap A)
    (blocks : List Block) (hh : h.Holds blocks) (n : Nat) {replies : List Reply} {kept : Kept}
    (hrun : serve sdk cs ⟨blocks.map Block.extent, n⟩ h = (.ok (replies, kept), h')) :
    ∃ results s', outcomes cs ⟨blocks.map Block.bytes, n⟩ = .ok (results, s') ∧
      (replies = results.map sdk.tell ↔ sdk = .java ∨ ∀ r ∈ results, r ≠ .error "") := by
  have hends := serve_ends sdk cs h blocks hh n
  rw [Ends, Eff.Ensures, hrun] at hends
  obtain ⟨blocks', -, -, hdirect⟩ := hends
  rw [serveDirect_eq_outcomes] at hdirect
  obtain ⟨⟨results, s'⟩, houtcomes, heq⟩ := ok_of_map hdirect
  obtain rfl : results.map sdk.receive = replies := congrArg Prod.fst heq
  refine ⟨results, s', houtcomes, ?_⟩
  rw [List.map_inj_left]
  by_cases hjava : sdk = .java
  · simp [Sdk.receive_eq_tell_iff, hjava]
  · simp [Sdk.receive_eq_tell_iff, hjava]

/-! ### A run -/

namespace Sample

/-- Bytes that are written as they are. -/
def raw : Codec Bytes := ⟨id, some, [], fun _ => rfl⟩

/-- A host whose clock shows the number of the call. -/
def clock : HostFn where
  Req := Bytes
  Res := Bytes
  reqCodec := raw
  resCodec := raw
  answer n _ := [UInt8.ofNat n]
  fits := by simp [raw]

/-- Keeps the request, asks for the time and answers with both. -/
def stamp : Call clock where
  Req := Bytes
  Res := Bytes
  reqCodec := raw
  resCodec := raw
  body request := .keep request <| .host [] fun time => .look 0 fun kept =>
    .done (time.map (· ++ kept))
  request := some [1, 2]
  fits := by simp [raw]

/-- Gives up what was kept last, and fails without a text. -/
def forget : Call clock where
  Req := Bytes
  Res := Bytes
  reqCodec := raw
  resCodec := raw
  body _ := .release 0 <| .done (.error "")
  request := none
  fits := by simp

/-- An empty memory. -/
def empty : Heap Allocator.bump := ⟨fun _ => 0, [], []⟩

theorem empty_holds : empty.Holds [] where
  live := List.Perm.refl []
  contents := by simp
  apart := .nil
  inBounds := by simp

/-- A memory in which the guest keeps a block at 2 GiB, and the next block comes above it. -/
def high : Heap Allocator.bump := ⟨fun _ => 7, [⟨2 ^ 31, 1⟩], []⟩

theorem high_holds : high.Holds [⟨2 ^ 31, [7]⟩] where
  live := List.Perm.refl _
  contents := by simp [high, Memory.read]
  apart := List.pairwise_singleton _ _
  inBounds := by simp [Block.extent, Extent.InBounds]

/-- Java stops at the first block above 2 GiB. -/
theorem calls_through_memory_sample :
    Plain .js [stamp, stamp, forget] empty [] 0 ∧ Plain .java [stamp] high [⟨2 ^ 31, [7]⟩] 0 :=
  ⟨calls_through_memory .js [stamp, stamp, forget] empty [] empty_holds 0,
    calls_through_memory .java [stamp] high _ high_holds 0⟩

/-- Go takes the failure for an empty response. -/
theorem replies_tell_results_sample :
    ∃ results s', outcomes [stamp, forget] ⟨[], 0⟩ = .ok (results, s') ∧
      ([.data [0, 1, 2], .data []] = results.map Sdk.go.tell ↔
        Sdk.go = .java ∨ ∀ r ∈ results, r ≠ .error "") :=
  replies_tell_results .go [stamp, forget] empty _ [] empty_holds 0
    (Eff.run_eq (r := Except.ok ([Reply.data [0, 1, 2], .data []], (⟨[], 1⟩ : Kept)))
      (by decide +kernel))

end Sample

end WasmMsg

end ConfidenceResolver
