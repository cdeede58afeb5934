import Hsm.Secrets.Store
import Mathlib.Data.Option.Defs

/-! The encrypted store answers as the one in memory, as long as JSON values look like themselves. -/

namespace Hsm.Secrets

structure Writing where
  path : SecretPath
  nonce : ByteVec 12
  data : SecretData

def SecretCall.writing : SecretCall → Option Writing
  | .create draws path data _ => some ⟨path, draws.nonce, data⟩
  | .update draws path data => some ⟨path, draws.nonce, data⟩
  | _ => none

section

variable {ν : Type} (encoding : Encoding ν)

def Encoding.Preserves (nonce : ByteVec 12) (data : SecretData) : Prop :=
  ∃ encoded, encoding.encode nonce data = .ok encoded ∧ encoding.decode encoded = .ok data

def SecretCall.Preserved (call : SecretCall) : Prop :=
  ∀ writing ∈ call.writing, encoding.Preserves writing.nonce writing.data

structure Mirrors (memory : SecretStore SecretData) (store : SecretStore ν) : Prop where
  secrets : store.secrets = memory.secrets
  data : ∀ key : SecretId × UInt32, Option.Rel (fun data encoded => encoding.decode encoded = .ok data)
    memory.data[key]? store.data[key]?

end

section

variable {ν : Type} {encoding : Encoding ν} {memory : SecretStore SecretData} {store : SecretStore ν}
  (mirrors : Mirrors encoding memory store)

include mirrors

theorem Mirrors.withSecrets (secrets : Dict SecretPath Secret) :
    Mirrors encoding { memory with secrets := secrets } { store with secrets := secrets } :=
  ⟨rfl, mirrors.data⟩

variable {data : SecretData}

theorem Mirrors.insert {encoded : ν} (decoded : encoding.decode encoded = .ok data)
    (key : SecretId × UInt32) :
    Mirrors encoding { memory with data := memory.data.insert key data }
      { store with data := store.data.insert key encoded } := by
  refine ⟨mirrors.secrets, fun other => ?_⟩
  rw [Dict.find_insert, Dict.find_insert]
  split
  · exact .some decoded
  · exact mirrors.data other

theorem Mirrors.erase (key : SecretId × UInt32) :
    Mirrors encoding { memory with data := memory.data.erase key }
      { store with data := store.data.erase key } := by
  refine ⟨mirrors.secrets, fun other => ?_⟩
  rw [Dict.find_erase, Dict.find_erase]
  split
  · exact .none
  · exact mirrors.data other

theorem Mirrors.removeVersions (secret : Secret) :
    Mirrors encoding { memory with data := SecretStore.removeVersions secret memory.data }
      { store with data := SecretStore.removeVersions secret store.data } := by
  unfold SecretStore.removeVersions
  generalize List.range secret.currentVersion.toNat = past
  induction past generalizing memory store with
  | nil => exact mirrors
  | cons version past ih => exact ih (mirrors.erase (secret.id, (version + 1).toUInt32))

theorem Mirrors.readVersion (secret : Secret) (version : UInt32) :
    store.readVersion encoding secret version =
      memory.readVersion InMemorySecretStore.encoding secret version := by
  have related := mirrors.data (secret.id, version)
  unfold SecretStore.readVersion
  cases kept : memory.data[(secret.id, version)]? with
  | none =>
    cases stored : store.data[(secret.id, version)]? with
    | none => rfl
    | some encoded =>
      rw [kept, stored] at related
      cases related
  | some data =>
    cases stored : store.data[(secret.id, version)]? with
    | none =>
      rw [kept, stored] at related
      cases related
    | some encoded =>
      rw [kept, stored] at related
      cases related with
      | some decoded =>
        simp only [decoded]
        rfl

def Agrees {ν α : Type} (encoding : Encoding ν) (inMemory : α × SecretStore SecretData)
    (mirrored : α × SecretStore ν) : Prop :=
  mirrored.1 = inMemory.1 ∧ Mirrors encoding inMemory.2 mirrored.2

theorem Mirrors.create {draws : Draws} (preserved : encoding.Preserves draws.nonce data)
    (path : SecretPath) (metadata : SecretMetadata) :
    Agrees encoding
      ((SecretStore.create InMemorySecretStore.encoding draws path data metadata).runAlone memory)
      ((SecretStore.create encoding draws path data metadata).runAlone store) := by
  obtain ⟨encoded, encodes, decodes⟩ := preserved
  simp only [SecretStore.create, Script.runAlone_atomically, mirrors.secrets, encodes,
    InMemorySecretStore.encoding]
  split
  · exact ⟨rfl, mirrors⟩
  · exact ⟨rfl, (mirrors.withSecrets _).insert decodes _⟩

theorem Mirrors.get (path : SecretPath) :
    Agrees encoding ((SecretStore.get InMemorySecretStore.encoding path).runAlone memory)
      ((SecretStore.get encoding path).runAlone store) := by
  simp only [SecretStore.get, Script.runAlone_atomically, mirrors.secrets]
  cases memory.secrets[path]? with
  | none => exact ⟨rfl, mirrors⟩
  | some secret => exact ⟨mirrors.readVersion _ _, mirrors⟩

theorem Mirrors.getVersion (path : SecretPath) (version : UInt32) :
    Agrees encoding
      ((SecretStore.getVersion InMemorySecretStore.encoding path version).runAlone memory)
      ((SecretStore.getVersion encoding path version).runAlone store) := by
  simp only [SecretStore.getVersion, Script.runAlone_atomically, mirrors.secrets]
  cases memory.secrets[path]? with
  | none => exact ⟨rfl, mirrors⟩
  | some secret =>
    dsimp only
    split
    · exact ⟨rfl, mirrors⟩
    · exact ⟨mirrors.readVersion _ _, mirrors⟩

theorem Mirrors.update {draws : Draws} (preserved : encoding.Preserves draws.nonce data)
    (path : SecretPath) :
    Agrees encoding ((SecretStore.update InMemorySecretStore.encoding draws path data).runAlone memory)
      ((SecretStore.update encoding draws path data).runAlone store) := by
  obtain ⟨encoded, encodes, decodes⟩ := preserved
  simp only [SecretStore.update, SecretStore.bumpVersion, SecretStore.insertVersion,
    Script.runAlone_bind, Script.runAlone_atomically, mirrors.secrets, encodes,
    InMemorySecretStore.encoding]
  cases memory.secrets[path]? with
  | none => exact ⟨rfl, mirrors⟩
  | some secret => exact ⟨rfl, (mirrors.withSecrets _).insert decodes _⟩

theorem Mirrors.delete (path : SecretPath) :
    Agrees encoding ((SecretStore.delete path).runAlone memory)
      ((SecretStore.delete path).runAlone store) := by
  simp only [SecretStore.delete, SecretStore.removeSecret, SecretStore.dropVersions,
    Script.runAlone_bind, Script.runAlone_atomically, mirrors.secrets]
  cases memory.secrets[path]? with
  | none => exact ⟨rfl, mirrors⟩
  | some secret => exact ⟨rfl, (mirrors.withSecrets _).removeVersions secret⟩

theorem Mirrors.destroyVersion (path : SecretPath) (version : UInt32) :
    Agrees encoding ((SecretStore.destroyVersion path version).runAlone memory)
      ((SecretStore.destroyVersion path version).runAlone store) := by
  simp only [SecretStore.destroyVersion, Script.runAlone_atomically, mirrors.secrets]
  cases memory.secrets[path]? with
  | none => exact ⟨rfl, mirrors⟩
  | some secret =>
    have related := mirrors.data (secret.id, version)
    dsimp only
    split
    · exact ⟨rfl, mirrors⟩
    · split
      · exact ⟨rfl, mirrors⟩
      · -- The version is there on both sides or on none.
        cases kept : memory.data[(secret.id, version)]? with
        | none =>
          rw [kept] at related
          cases stored : store.data[(secret.id, version)]? with
          | none => exact ⟨rfl, mirrors⟩
          | some encoded =>
            rw [stored] at related
            cases related
        | some data =>
          rw [kept] at related
          cases stored : store.data[(secret.id, version)]? with
          | none =>
            rw [stored] at related
            cases related
          | some encoded => exact ⟨rfl, rfl, (mirrors.erase (secret.id, version)).data⟩

theorem Mirrors.updateMetadata (draws : Draws) (path : SecretPath) (metadata : SecretMetadata) :
    Agrees encoding ((SecretStore.updateMetadata draws path metadata).runAlone memory)
      ((SecretStore.updateMetadata draws path metadata).runAlone store) := by
  simp only [SecretStore.updateMetadata, Script.runAlone_atomically, mirrors.secrets]
  cases memory.secrets[path]? with
  | none => exact ⟨rfl, mirrors⟩
  | some secret => exact ⟨rfl, mirrors.withSecrets _⟩

theorem Mirrors.looking {α : Type} (answer : Dict SecretPath Secret → α)
    {inMemory : Script (SecretStore SecretData) α} {mirrored : Script (SecretStore ν) α}
    (looks : inMemory.runAlone memory = (answer memory.secrets, memory))
    (looksToo : mirrored.runAlone store = (answer store.secrets, store)) :
    Agrees encoding (inMemory.runAlone memory) (mirrored.runAlone store) := by
  rw [looks, looksToo, mirrors.secrets]
  exact ⟨rfl, mirrors⟩

omit mirrors in
theorem runAlone_query {ν α : Type} (path : SecretPath) (found : Secret → α) (store : SecretStore ν) :
    (Script.atomically fun store : SecretStore ν =>
      match store.secrets[path]? with
      | none => (Except.error (SecretError.notFound path), store)
      | some secret => (.ok (found secret), store)).runAlone store =
      ((store.secrets[path]?.map found).elim (.error (.notFound path)) .ok, store) := by
  rw [Script.runAlone_atomically]
  cases store.secrets[path]? <;> rfl

theorem Mirrors.serve {call : SecretCall} (preserved : call.Preserved encoding) :
    (store.serve encoding call).2 = (memory.serve InMemorySecretStore.encoding call).2 ∧
      Mirrors encoding (memory.serve InMemorySecretStore.encoding call).1
        (store.serve encoding call).1 := by
  have reply : ∀ {α : Type} {inMemory : Script (SecretStore SecretData) α}
      {mirrored : Script (SecretStore ν) α} (reply : α → SecretReply),
      Agrees encoding (inMemory.runAlone memory) (mirrored.runAlone store) →
      [((do return reply (← mirrored)) : Script _ SecretReply).runAlone store |>.1] =
        [((do return reply (← inMemory)) : Script _ SecretReply).runAlone memory |>.1] ∧
      Mirrors encoding (((do return reply (← inMemory)) : Script _ SecretReply).runAlone memory).2
        (((do return reply (← mirrored)) : Script _ SecretReply).runAlone store).2 := by
    intro α inMemory mirrored reply agrees
    rw [Script.runAlone_bind, Script.runAlone_bind]
    exact ⟨congrArg (fun result => [reply result]) agrees.1, agrees.2⟩
  cases call with
  | create draws path data metadata =>
    exact reply .written (mirrors.create (preserved _ rfl) path metadata)
  | get path => exact reply .read (mirrors.get path)
  | getVersion path version => exact reply .read (mirrors.getVersion path version)
  | update draws path data => exact reply .written (mirrors.update (preserved _ rfl) path)
  | delete path => exact reply .changed (mirrors.delete path)
  | destroyVersion path version => exact reply .changed (mirrors.destroyVersion path version)
  | list lead =>
    exact reply .listed (mirrors.looking (fun secrets => secrets.keys.filter fun path =>
      lead.toList.isPrefixOf path.toList) (Script.runAlone_atomically _ _)
      (Script.runAlone_atomically _ _))
  | getMetadata path =>
    exact reply .metadata (mirrors.looking (fun secrets =>
      (secrets[path]?.map Secret.metadata).elim (.error (.notFound path)) .ok)
      (runAlone_query path _ memory) (runAlone_query path _ store))
  | updateMetadata draws path metadata =>
    exact reply .changed (mirrors.updateMetadata draws path metadata)
  | «exists» path =>
    exact reply .found (mirrors.looking (fun secrets => secrets.contains path)
      (Script.runAlone_atomically _ _) (Script.runAlone_atomically _ _))
  | versionCount path =>
    exact reply .counted (mirrors.looking (fun secrets =>
      (secrets[path]?.map Secret.currentVersion).elim (.error (.notFound path)) .ok)
      (runAlone_query path _ memory) (runAlone_query path _ store))

end

theorem SecretStore.serve_get_written {ν : Type} {encoding : Encoding ν} {store after : SecretStore ν}
    {call : SecretCall} {writing : Writing} (writes : call.writing = some writing) {secret : Secret}
    (served : store.serve encoding call = (after, [.written (.ok secret)])) :
    ∃ encoded, encoding.encode writing.nonce writing.data = .ok encoded ∧
      after.secrets[writing.path]? = some secret ∧
      after.data[(secret.id, secret.currentVersion)]? = some encoded := by
  cases call with
  | create draws path data metadata =>
    cases writes
    simp only [serve, SecretCall.program, SecretStore.create, Script.runAlone_bind,
      Script.runAlone_atomically, Script.runAlone_pure] at served
    by_cases present : store.secrets.contains path = true
    · rw [if_pos present] at served
      cases served
    · rw [if_neg present] at served
      cases encodes : encoding.encode draws.nonce data with
      | error failure =>
        rw [encodes] at served
        cases served
      | ok encoded =>
        rw [encodes] at served
        cases served
        exact ⟨encoded, rfl, Dict.find_insert_self .., Dict.find_insert_self ..⟩
  | update draws path data =>
    cases writes
    simp only [serve, SecretCall.program, SecretStore.update, SecretStore.bumpVersion,
      Script.runAlone_bind, Script.runAlone_atomically, Script.runAlone_pure] at served
    cases found : store.secrets[path]? with
    | none =>
      rw [found] at served
      cases served
    | some previous =>
      rw [found] at served
      cases encodes : encoding.encode draws.nonce data with
      | error failure =>
        simp only [encodes] at served
        cases served
      | ok encoded =>
        simp only [encodes] at served
        cases served
        exact ⟨encoded, rfl, Dict.find_insert_self .., Dict.find_insert_self ..⟩
  | _ => cases writes

section

variable (aead : Aead) (serde : SerdeJson) (encryptionKey : ByteVec 32)

/-- Data that is encrypted, and looks like no other variant. -/
structure Storable (nonce : ByteVec 12) (data : SecretData) : Prop where
  recoverable : data.Recoverable
  size : (serde.toVec data.toJson).length ≤ AesGcmEngine.maxPlaintextSize
  encrypts : (aead.encrypt encryptionKey nonce (serde.toVec data.toJson)).isSome

def SecretCall.Storable (call : SecretCall) : Prop :=
  ∀ writing ∈ call.writing, Secrets.Storable aead serde encryptionKey writing.nonce writing.data

def SecretCall.Printable (call : SecretCall) : Prop :=
  ∀ writing ∈ call.writing, serde.Parses writing.data.toJson

end

section

variable {aead : Aead} {serde : SerdeJson} {encryptionKey : ByteVec 32}

variable {nonce : ByteVec 12} {data : SecretData}

theorem encrypted_iff :
    (∃ encrypted, EncryptedSecretStore.encryptData aead serde encryptionKey nonce data =
        .ok encrypted) ↔
      (serde.toVec data.toJson).length ≤ AesGcmEngine.maxPlaintextSize ∧
        (aead.encrypt encryptionKey nonce (serde.toVec data.toJson)).isSome := by
  unfold EncryptedSecretStore.encryptData AesGcmEngine.encryptAes256
  by_cases large : (serde.toVec data.toJson).length > AesGcmEngine.maxPlaintextSize
  · rw [if_pos large]
    refine iff_of_false ?_ fun fits => absurd fits.1 (Nat.not_le.mpr large)
    intro ⟨encrypted, given⟩
    cases given
  · rw [if_neg large]
    cases sealed : aead.encrypt encryptionKey nonce (serde.toVec data.toJson) with
    | none =>
      refine iff_of_false ?_ fun fits => nomatch fits.2
      intro ⟨encrypted, given⟩
      cases given
    | some ciphertext => exact iff_of_true ⟨_, rfl⟩ ⟨Nat.not_lt.mp large, rfl⟩

theorem decryptData_encryptData (lawful : aead.Lawful) (parses : serde.Parses data.toJson)
    {encrypted : Bytes}
    (given : EncryptedSecretStore.encryptData aead serde encryptionKey nonce data = .ok encrypted) :
    EncryptedSecretStore.decryptData aead serde encryptionKey encrypted = .ok data ↔
      data.Recoverable := by
  unfold EncryptedSecretStore.encryptData at given
  cases sealed : AesGcmEngine.encryptAes256 aead encryptionKey nonce (serde.toVec data.toJson) with
  | error cause =>
    rw [sealed] at given
    cases given
  | ok bytes =>
    rw [sealed] at given
    cases given
    rw [← data.ofJson_toJson_iff]
    unfold EncryptedSecretStore.decryptData
    rw [AesGcmEngine.decrypt_encrypt lawful sealed]
    simp only [show serde.fromSlice (serde.toVec data.toJson) = .ok data.toJson from parses]
    rw [show (Except.ok data.toJson >>= SecretData.ofJson) = SecretData.ofJson data.toJson from rfl]
    cases SecretData.ofJson data.toJson with
    | error cause => exact iff_of_false (fun same => by cases same) fun same => by cases same
    | ok read => rw [Except.ok.injEq, Except.ok.injEq]

theorem preserves_iff_storable (lawful : aead.Lawful) (parses : serde.Parses data.toJson) :
    (EncryptedSecretStore.encoding aead serde encryptionKey).Preserves nonce data ↔
      Storable aead serde encryptionKey nonce data := by
  constructor
  · intro ⟨encrypted, encodes, decodes⟩
    obtain ⟨size, encrypts⟩ := encrypted_iff.mp ⟨encrypted, encodes⟩
    exact ⟨(decryptData_encryptData lawful parses encodes).mp decodes, size, encrypts⟩
  · intro storable
    obtain ⟨encrypted, encodes⟩ := encrypted_iff.mpr ⟨storable.size, storable.encrypts⟩
    exact ⟨encrypted, encodes, (decryptData_encryptData lawful parses encodes).mpr storable.recoverable⟩

/-- What was written is read back exactly if it looks like no other variant. -/
theorem written_reads_back_iff (lawful : aead.Lawful) {call : SecretCall} {writing : Writing}
    (writes : call.writing = some writing) (parses : serde.Parses writing.data.toJson)
    {store after : SecretStore Bytes} {secret : Secret}
    (served : store.serve (EncryptedSecretStore.encoding aead serde encryptionKey) call =
      (after, [.written (.ok secret)])) :
    after.secrets[writing.path]? = some secret ∧
      (after.readVersion (EncryptedSecretStore.encoding aead serde encryptionKey) secret
          secret.currentVersion = .ok (secret, writing.data) ↔ writing.data.Recoverable) := by
  obtain ⟨encrypted, encodes, found, stored⟩ := SecretStore.serve_get_written writes served
  refine ⟨found, ?_⟩
  rw [← decryptData_encryptData lawful parses encodes, SecretStore.readVersion, stored]
  show (do let data ← EncryptedSecretStore.decryptData aead serde encryptionKey encrypted
           return (secret, data)) = Except.ok (secret, writing.data) ↔ _
  cases EncryptedSecretStore.decryptData aead serde encryptionKey encrypted with
  | error failure => exact iff_of_false (fun same => nomatch same) fun same => nomatch same
  | ok data =>
    show Except.ok (secret, data) = .ok (secret, writing.data) ↔ _
    rw [Except.ok.injEq, Except.ok.injEq, Prod.mk.injEq]
    exact and_iff_right rfl

/-- The encrypted store answers all storable calls as the store in memory does. -/
theorem encryptedStore_reads_back (lawful : aead.Lawful) :
    (∀ calls : List SecretCall, (∀ call ∈ calls, call.Printable serde) →
      (∀ call ∈ calls, call.Storable aead serde encryptionKey) →
      (trace (SecretStore.serve (EncryptedSecretStore.encoding aead serde encryptionKey))
          .empty calls).2 =
        (trace (SecretStore.serve InMemorySecretStore.encoding) .empty calls).2) ∧
    ∀ (store after : SecretStore Bytes) (call : SecretCall) (writing : Writing) (secret : Secret),
      call.writing = some writing → serde.Parses writing.data.toJson →
      store.serve (EncryptedSecretStore.encoding aead serde encryptionKey) call =
        (after, [.written (.ok secret)]) →
      ((after.serve (EncryptedSecretStore.encoding aead serde encryptionKey) (.get writing.path)).2 =
          [.read (.ok (secret, writing.data))] ↔ writing.data.Recoverable) ∧
      ((after.serve (EncryptedSecretStore.encoding aead serde encryptionKey)
          (.getVersion writing.path secret.currentVersion)).2 =
          [.read (.ok (secret, writing.data))] ↔
        writing.data.Recoverable ∧ secret.currentVersion ≠ 0) := by
  constructor
  · intro calls printable storable
    have step : ∀ memory store, Mirrors (EncryptedSecretStore.encoding aead serde encryptionKey)
        memory store → ∀ call ∈ calls, _ := fun memory store mirrors call member =>
      mirrors.serve fun writing writes => (preserves_iff_storable lawful
        (printable call member writing writes)).mpr (storable call member writing writes)
    have start : Mirrors (EncryptedSecretStore.encoding aead serde encryptionKey)
        SecretStore.empty SecretStore.empty := ⟨rfl, fun _ => .none⟩
    exact (trace_simulation _ step _ _ start).1
  · intro store after call writing secret writes parses served
    obtain ⟨found, reads⟩ := written_reads_back_iff lawful writes parses served
    constructor
    · simp only [SecretStore.serve, SecretCall.program, SecretStore.get, Script.runAlone_bind,
        Script.runAlone_atomically, Script.runAlone_pure, found, List.cons.injEq, and_true,
        SecretReply.read.injEq]
      exact reads
    · simp only [SecretStore.serve, SecretCall.program, SecretStore.getVersion, Script.runAlone_bind,
        Script.runAlone_atomically, Script.runAlone_pure, found]
      by_cases zero : secret.currentVersion = 0
      · rw [if_pos (.inr zero)]
        exact iff_of_false (fun same => nomatch same) fun both => both.2 zero
      · rw [if_neg (fun either => either.elim (fun later => UInt32.lt_irrefl _ later) zero)]
        simp only [List.cons.injEq, and_true, SecretReply.read.injEq]
        rw [reads, and_iff_left zero]

end

def SerdeJson.ofKnown (values : List JsonValue) : SerdeJson where
  toVec value := asBytes value.print
  fromSlice bytes :=
    match values.find? fun value => asBytes value.print = bytes with
    | some value => .ok value
    | none => .error "expected value"

namespace Known

def text : JsonValue := .object [("data", .object [("k", .string "x")])]

def key : ByteVec 32 := ⟨List.replicate 32 42, rfl⟩

def draws : Draws := ⟨1700000000000000000, "b9c0", ⟨List.replicate 12 7, rfl⟩⟩

def aesGcm : Aead := Aead.ofKnown [⟨key, draws.nonce, asBytes text.print,
  [68, 221, 155, 196, 33, 245, 7, 11, 130, 104, 27, 130, 176, 222, 207, 25, 71, 251, 36, 224, 93, 43,
    141, 121, 112, 1, 223, 184, 78, 227, 74, 176, 200, 33]⟩]

def serde : SerdeJson := .ofKnown [text]

def encoding : Encoding Bytes := EncryptedSecretStore.encoding aesGcm serde key

def data (value : SecretValue) : SecretData := ⟨Std.ExtTreeMap.ofList [("k", value)] compare⟩

def secret : Secret :=
  ⟨draws.id, "/app/db", 1, {}, draws.now, draws.now⟩

def calls (value : SecretValue) : List SecretCall :=
  [.create draws "/app/db" (data value) {}, .get "/app/db"]

theorem aesGcm_lawful : aesGcm.Lawful :=
  Aead.ofKnown_lawful (by decide +kernel) (by decide +kernel)

theorem parses_text : serde.Parses text := by
  have found : [text].find? (fun value => asBytes value.print = asBytes text.print) = some text :=
    List.find?_cons_of_pos (decide_eq_true rfl)
  unfold SerdeJson.Parses serde SerdeJson.ofKnown
  simp only [found]

theorem encrypts_text : (aesGcm.encrypt key draws.nonce (serde.toVec text)).isSome := by
  decide +kernel

theorem size_text : (serde.toVec text).length ≤ AesGcmEngine.maxPlaintextSize := by
  decide +kernel

end Known

theorem json_string_reads_as_string :
    ∃ read, (trace (SecretStore.serve Known.encoding) .empty
        (Known.calls (.json (.string "x")))).2 =
      [.written (.ok Known.secret), .read (.ok (Known.secret, read))] ∧
      (Known.data (.json (.string "x"))).data["k"]? = some (.json (.string "x")) ∧
      read.data["k"]? = some (.string "x") := by
  refine ⟨Known.data (.string "x"), ?_, rfl, rfl⟩
  rfl

theorem encryptedStore_reads_back_created :
    (trace (SecretStore.serve Known.encoding) .empty (Known.calls (.string "x"))).2 =
      (trace (SecretStore.serve InMemorySecretStore.encoding) .empty
        (Known.calls (.string "x"))).2 := by
  have printed : (Known.data (.string "x")).toJson = Known.text := rfl
  have onlyWrites : ∀ call ∈ Known.calls (.string "x"), ∀ writing ∈ call.writing,
      writing = ⟨"/app/db", Known.draws.nonce, Known.data (.string "x")⟩ := by
    intro call member writing writes
    rcases List.mem_cons.mp member with rfl | member
    · exact (Option.some.inj writes).symm
    · cases List.mem_singleton.mp member
      cases writes
  refine (encryptedStore_reads_back Known.aesGcm_lawful).1 _ ?_ ?_
  · intro call member writing writes
    rw [onlyWrites call member writing writes, printed]
    exact Known.parses_text
  · intro call member writing writes
    rw [onlyWrites call member writing writes]
    refine ⟨?_, ?_, ?_⟩
    · rw [← SecretData.ofJson_toJson_iff]
      rfl
    · rw [printed]
      exact Known.size_text
    · rw [printed]
      exact Known.encrypts_text

end Hsm.Secrets
