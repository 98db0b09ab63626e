import ConfidenceResolver.Resolver.State

/-!
# Resolver — the state from its message

`ResolverState::from_proto`: the tables of a resolver state are filled in the order of the message.
A client is looked up by its secret; which client a credential belongs to is decided by comparing
their names.

* `get?_secrets`: a secret leads to the last client and credential that match.
* `secrets_owned_iff`: when it leads to the client that owns the credential.
* `prefix_takes_secret`: a client whose name starts another's.
-/

namespace ConfidenceResolver

/-! ### The message -/

/-- `iam.Client`. -/
structure IamClient where
  name : String
  managedContext : List (String × Value)

/-- `iam.ClientCredential.ClientSecret`. -/
structure ClientSecret where
  secret : String
deriving DecidableEq

/-- `iam.ClientCredential`. -/
structure ClientCredential where
  name : String
  credential : Option ClientSecret
  environments : List String

/-- `packed_bitset::Bitset`. -/
inductive Bitset where
  | gzippedBitset (bytes : List UInt8)
  | fullBitset (full : Bool)

/-- `PackedBitset`. -/
structure PackedBitset where
  segment : String
  bitset : Option Bitset

/-- `BloomFilter` of the message: an `int32`, an `int64` and an `int32`. -/
structure BloomFilterPb where
  materializedSegment : String
  data : List UInt8
  hashFunctionCount : Int
  bitCount : Int
  strategy : Int

/-- `flags_admin::ResolverState`. -/
structure ResolverStatePb where
  flags : List Flag
  segmentsNoBitsets : List Segment
  bitsets : List PackedBitset
  clients : List IamClient
  clientCredentials : List ClientCredential
  bloomFilters : List BloomFilterPb

/-! ### Bitsets and bloom filters -/

/-- `decompress_to_vec` of `miniz_oxide` and `hash` of `crc32fast`. -/
structure GzipLibrary where
  decompressToVec : List UInt8 → Option (List UInt8)
  crc32 : List UInt8 → Nat

/-- `decompress_gz`.  Of the header's flags only the lowest may be set. -/
def decompressGz (lib : GzipLibrary) (buffer : List UInt8) : Option (List UInt8) :=
  match buffer with
  | m0 :: m1 :: cm :: flags :: _ => do
      guard (m0 = 0x1f ∧ m1 = 0x8b ∧ cm = 8 ∧ flags &&& 0xfe = 0)
      guard (18 ≤ buffer.length)
      let trailerStart := buffer.length - 8
      let crc := fromLeBytes ((buffer.drop trailerStart).take 4)
      let isize := fromLeBytes (buffer.drop (trailerStart + 4))
      let data ← lib.decompressToVec ((buffer.take trailerStart).drop 10)
      guard (isize = data.length % 2 ^ 32 ∧ lib.crc32 data = crc)
      return data
  | _ => none

/-- `BitVec<u8, Lsb0>::from_slice`. -/
def bitsOf (data : List UInt8) : List Bool :=
  data.flatMap fun b => (List.range 8).map b.toNat.testBit

/-- Each chunk of eight bytes reversed; a shorter rest stays as it is. -/
def reverseChunks (data : List UInt8) : List UInt8 :=
  (List.range (data.length / 8)).flatMap (fun i => ((data.drop (8 * i)).take 8).reverse) ++
    data.drop (8 * (data.length / 8))

/-- `BloomFilter::from_proto`. -/
def BloomFilter.fromProto (packed : BloomFilterPb) : Option BloomFilter :=
  if packed.strategy = 1 then
    some
      { bits := bitsOf (reverseChunks packed.data)
        numHashFunctions := (packed.hashFunctionCount % 2 ^ 32).toNat
        numBits := (packed.bitCount % 2 ^ 64).toNat }
  else none

/-- One bitset of `from_proto`: a segment without one is full. -/
def insertBitset (lib : GzipLibrary) (bitsets : AList fun _ : String => List Bool)
    (bitset : PackedBitset) : Option (AList fun _ : String => List Bool) :=
  match bitset.bitset with
  | none => some bitsets
  | some (.gzippedBitset zipped) =>
      (decompressGz lib zipped).map fun buffer => bitsets.insert bitset.segment (bitsOf buffer)
  | some (.fullBitset full) => if full then some bitsets else none

/-- One bloom filter of `from_proto`: those that are not supported are left out. -/
def insertBloomFilter (filters : AList fun _ : String => BloomFilter) (bf : BloomFilterPb) :
    AList fun _ : String => BloomFilter :=
  match BloomFilter.fromProto bf with
  | some filter => filters.insert bf.materializedSegment filter
  | none => filters

/-! ### Clients -/

/-- The client that a secret leads to. -/
def clientOf (accountId : String) (client : IamClient) (credential : ClientCredential) :
    ConfidenceResolver.Client where
  account := ⟨"accounts/" ++ accountId⟩
  clientName := client.name
  clientCredentialName := credential.name
  environments := credential.environments
  managedContext := client.managedContext

/-- `credential.name.starts_with(client.name)`. -/
def nameMatches (client : IamClient) (credential : ClientCredential) : Bool :=
  client.name.toList.isPrefixOf credential.name.toList

/-- One turn of the inner loop. -/
def insertSecret (accountId : String) (client : IamClient) (secrets : HashMap String Client)
    (credential : ClientCredential) : HashMap String Client :=
  if nameMatches client credential then
    match credential.credential with
    | some clientSecret => secrets.insert clientSecret.secret (clientOf accountId client credential)
    | none => secrets
  else secrets

/-- The loop over the clients. -/
def secretsOf (pb : ResolverStatePb) (accountId : String) : HashMap String Client :=
  pb.clients.foldl
    (fun secrets client => pb.clientCredentials.foldl (insertSecret accountId client) secrets) .empty

/-- `ResolverState::from_proto`. -/
def ResolverState.fromProto (lib : GzipLibrary) (pb : ResolverStatePb) (accountId : String)
    (sdk : Option Sdk) : Option ResolverState := do
  let bitsets ← pb.bitsets.foldlM (insertBitset lib) ∅
  return {
    secrets := secretsOf pb accountId
    flags := pb.flags.foldl NamedMap.insert .empty
    segments := pb.segmentsNoBitsets.foldl NamedMap.insert .empty
    bitsets := bitsets
    bloomFilters := pb.bloomFilters.foldl insertBloomFilter ∅
    sdk := sdk }

/-! ### Which client a secret leads to -/

/-- A client and a credential whose name starts with the client's, with the secret it carries. -/
structure Match where
  client : IamClient
  credential : ClientCredential
  secret : String

def matchOf (client : IamClient) (credential : ClientCredential) : Option Match :=
  if nameMatches client credential then
    credential.credential.map fun clientSecret => ⟨client, credential, clientSecret.secret⟩
  else none

/-- The matches, in the order of the loops. -/
def matchesOf (pb : ResolverStatePb) : List Match :=
  pb.clients.flatMap fun client => pb.clientCredentials.filterMap (matchOf client)

theorem insertSecret_eq (accountId : String) (client : IamClient) (secrets : HashMap String Client)
    (credential : ClientCredential) :
    insertSecret accountId client secrets credential =
      match matchOf client credential with
      | some m => secrets.insert m.secret (clientOf accountId m.client m.credential)
      | none => secrets := by
  rw [insertSecret, matchOf]
  by_cases h : nameMatches client credential
  · rw [if_pos h, if_pos h]
    cases credential.credential <;> rfl
  · rw [if_neg h, if_neg h]

theorem secretsOf_eq (pb : ResolverStatePb) (accountId : String) :
    secretsOf pb accountId = (matchesOf pb).foldl
      (fun secrets m => secrets.insert m.secret (clientOf accountId m.client m.credential))
      .empty := by
  rw [secretsOf, matchesOf, List.foldl_flatMap]
  congr 1
  funext secrets client
  rw [List.foldl_filterMap]
  congr 1
  funext secrets credential
  rw [insertSecret_eq]
  cases matchOf client credential <;> rfl

/-- **The last match** of a secret is the one that it leads to. -/
theorem get?_secretsOf {pb : ResolverStatePb} {accountId secret : String} {client : Client} :
    (secretsOf pb accountId).get? secret = some client ↔
      ∃ pre m post, matchesOf pb = pre ++ m :: post ∧ m.secret = secret ∧
        (∀ m' ∈ post, m'.secret ≠ secret) ∧ clientOf accountId m.client m.credential = client := by
  rw [secretsOf_eq, HashMap.get?_foldl_insert, HashMap.get?_empty, Option.or_none,
    List.getLast?_filter, Option.map_eq_some_iff]
  constructor
  · rintro ⟨m, hfind, rfl⟩
    obtain ⟨hm, post, pre, hsplit, hpost⟩ := List.find?_eq_some_iff_append.mp hfind
    refine ⟨pre.reverse, m, post.reverse, ?_, by simpa using hm, by simpa using hpost, rfl⟩
    rw [← List.reverse_reverse (matchesOf pb), hsplit]
    simp
  · rintro ⟨pre, m, post, hsplit, rfl, hpost, rfl⟩
    refine ⟨m, List.find?_eq_some_iff_append.mpr ⟨by simp, post.reverse, pre.reverse, ?_, ?_⟩, rfl⟩
    · rw [hsplit]
      simp
    · simpa using hpost

/-! ### Ownership -/

/-- What stands before the first `/clientCredentials/`. -/
def beforeCredentials : List Char → Option (List Char)
  | [] => none
  | c :: cs =>
      if "/clientCredentials/".toList.isPrefixOf (c :: cs) then some []
      else (beforeCredentials cs).map (c :: ·)

/-- The name of the client that owns a credential of this name. -/
def owner (credentialName : String) : Option String :=
  (beforeCredentials credentialName.toList).map String.ofList

example : owner "clients/a/clientCredentials/k" = some "clients/a" := by decide

/-- A secret of the table leads to the client that owns the credential carrying it. -/
def SecretsOwned (pb : ResolverStatePb) (secrets : HashMap String Client) : Prop :=
  ∀ secret client, secrets.get? secret = some client →
    ∀ credential ∈ pb.clientCredentials, credential.credential = some ⟨secret⟩ →
      owner credential.name = some client.clientName

/-- A match with a client that does not own the credential comes to nothing: a later match carries
the same secret.  And a secret that is matched is carried by credentials of one owner. -/
structure OwnersLast (pb : ResolverStatePb) : Prop where
  replaced : ∀ pre m post, matchesOf pb = pre ++ m :: post →
    owner m.credential.name = some m.client.name ∨ ∃ m' ∈ post, m'.secret = m.secret
  shared : ∀ m ∈ matchesOf pb, ∀ credential ∈ pb.clientCredentials,
    credential.credential = some ⟨m.secret⟩ → owner credential.name = owner m.credential.name

/-- A match is of a credential of the message, which carries its secret. -/
theorem carried_of_mem {pb : ResolverStatePb} {m : Match} (h : m ∈ matchesOf pb) :
    m.credential ∈ pb.clientCredentials ∧ m.credential.credential = some ⟨m.secret⟩ := by
  obtain ⟨client, -, hm⟩ := List.mem_flatMap.mp h
  obtain ⟨credential, hcredential, hmatch⟩ := List.mem_filterMap.mp hm
  rw [matchOf] at hmatch
  by_cases hname : nameMatches client credential
  · rw [if_pos hname] at hmatch
    obtain ⟨clientSecret, hsecret, rfl⟩ := Option.map_eq_some_iff.mp hmatch
    exact ⟨hcredential, hsecret⟩
  · rw [if_neg hname] at hmatch
    cases hmatch

/-- Of the matches of one secret there is a last one. -/
theorem last_match {pb : ResolverStatePb} {m : Match} (h : m ∈ matchesOf pb) :
    ∃ pre l post, matchesOf pb = pre ++ l :: post ∧ l.secret = m.secret ∧
      ∀ m' ∈ post, m'.secret ≠ m.secret := by
  have hsome : ((matchesOf pb).reverse.find? fun l => l.secret = m.secret).isSome :=
    List.find?_isSome.mpr ⟨m, List.mem_reverse.mpr h, by simp⟩
  obtain ⟨l, hl⟩ := Option.isSome_iff_exists.mp hsome
  obtain ⟨hsecret, post, pre, hsplit, hpost⟩ := List.find?_eq_some_iff_append.mp hl
  refine ⟨pre.reverse, l, post.reverse, ?_, by simpa using hsecret, by simpa using hpost⟩
  rw [← List.reverse_reverse (matchesOf pb), hsplit]
  simp

theorem SecretsOwned.of_ownersLast {pb : ResolverStatePb} {accountId : String}
    (h : OwnersLast pb) : SecretsOwned pb (secretsOf pb accountId) := by
  intro secret client hget credential hcredential hcarried
  obtain ⟨pre, m, post, hsplit, rfl, hlast, rfl⟩ := get?_secretsOf.mp hget
  have hm : m ∈ matchesOf pb := by simp [hsplit]
  rw [h.shared m hm credential hcredential hcarried]
  rcases h.replaced pre m post hsplit with howner | ⟨m', hm', hsecret⟩
  · exact howner
  · exact absurd hsecret (hlast m' hm')

theorem OwnersLast.of_secretsOwned {pb : ResolverStatePb} {accountId : String}
    (h : SecretsOwned pb (secretsOf pb accountId)) : OwnersLast pb where
  replaced pre m post hsplit := by
    by_cases hlater : ∃ m' ∈ post, m'.secret = m.secret
    · exact .inr hlater
    · have hlast : ∀ m' ∈ post, m'.secret ≠ m.secret := fun m' hm' e => hlater ⟨m', hm', e⟩
      have hm : m ∈ matchesOf pb := by simp [hsplit]
      obtain ⟨hmem, hcarried⟩ := carried_of_mem hm
      exact .inl (h _ _ (get?_secretsOf.mpr ⟨pre, m, post, hsplit, rfl, hlast, rfl⟩) _ hmem hcarried)
  shared m hm credential hcredential hcarried := by
    obtain ⟨pre, l, post, hsplit, hsecret, hlast⟩ := last_match hm
    have howned := h _ _ (get?_secretsOf.mpr ⟨pre, l, post, hsplit, hsecret, hlast, rfl⟩)
    obtain ⟨hmem, hm⟩ := carried_of_mem hm
    rw [howned _ hcredential hcarried, howned _ hmem hm]

/-- **Ownership of secrets**: every secret leads to the client that owns its credential when the
last match of the secret does. -/
theorem secrets_owned_iff {lib : GzipLibrary} {pb : ResolverStatePb} {accountId : String}
    {sdk : Option Sdk} {state : ResolverState}
    (h : ResolverState.fromProto lib pb accountId sdk = some state) :
    SecretsOwned pb state.secrets ↔ OwnersLast pb := by
  obtain ⟨bitsets, -, hstate⟩ := Option.bind_eq_some_iff.mp h
  cases hstate
  exact ⟨.of_secretsOwned, .of_ownersLast⟩

namespace Sample

def gzip : GzipLibrary := ⟨fun _ => none, fun _ => 0⟩

/-- A credential of `clients/ab`, and the given clients. -/
def accountOf (clients : List String) : ResolverStatePb where
  flags := []
  segmentsNoBitsets := []
  bitsets := []
  clients := clients.map fun name => ⟨name, []⟩
  clientCredentials := [⟨"clients/ab/clientCredentials/k", some ⟨"s"⟩, []⟩]
  bloomFilters := []

end Sample

theorem secrets_owned_iff_sample :
    ∃ state, ResolverState.fromProto Sample.gzip (Sample.accountOf ["clients/a", "clients/ab"]) "1"
        none = some state ∧ (state.secrets.get? "s").map (·.clientName) = some "clients/ab" ∧
      (SecretsOwned (Sample.accountOf ["clients/a", "clients/ab"]) state.secrets ↔
        OwnersLast (Sample.accountOf ["clients/a", "clients/ab"])) := by
  have haccepted : ResolverState.fromProto Sample.gzip
      (Sample.accountOf ["clients/a", "clients/ab"]) "1" none = some _ := rfl
  exact ⟨_, haccepted, by decide, secrets_owned_iff haccepted⟩

/-- **A client whose name starts another client's** takes that client's secret, if it comes
later. -/
theorem prefix_takes_secret :
    ∃ state, ResolverState.fromProto Sample.gzip (Sample.accountOf ["clients/ab", "clients/a"]) "1"
        none = some state ∧ ¬ SecretsOwned (Sample.accountOf ["clients/ab", "clients/a"])
          state.secrets := by
  refine ⟨_, rfl, fun h => ?_⟩
  have howned := h "s" (clientOf "1" ⟨"clients/a", []⟩
    ⟨"clients/ab/clientCredentials/k", some ⟨"s"⟩, []⟩) (by rfl) _ List.mem_cons_self rfl
  exact absurd howned (by decide)

end ConfidenceResolver
