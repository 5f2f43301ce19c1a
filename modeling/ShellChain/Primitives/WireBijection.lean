import ShellChain.Library.OffsetTable
import ShellChain.Primitives.Codec

/-!
# The wire format is a bijection

Every decoder accepts exactly the bytes its encoder writes. Fixed parts are
compared field by field at their offsets; the authorization list goes through
the offset-table library. The only place where the width of `usize` matters is
the length the list encoder accumulates.
-/

namespace ShellPrimitives.Codec

open ByteCodec Except

/-! ## Fields -/

theorem readWindow_eq_ok_iff {n : Nat} (positive : 0 < n) (context : String) (bytes : List UInt8)
    (offset : Nat) (v : FixedBytes n) :
    readWindow n context bytes offset = .ok v ↔ FieldAt bytes offset v.toList := by
  rw [← window_eq_some_iff positive, readWindow]
  cases window bytes offset n <;> simp [fail]

theorem readBytes32_eq_ok_iff (bytes : List UInt8) (offset : Nat) (v : Bytes32) :
    readBytes32 bytes offset = .ok v ↔ FieldAt bytes offset v.toList :=
  readWindow_eq_ok_iff (by decide) _ bytes offset v

theorem readAddress_eq_ok_iff (bytes : List UInt8) (offset : Nat) (v : ExecutionAddress) :
    readAddress bytes offset = .ok v ↔ FieldAt bytes offset v.toList :=
  readWindow_eq_ok_iff (by decide) _ bytes offset v

@[simp] theorem length_pushU256 (v : U256) : (pushU256 v).length = 32 := v.bytes.toList_length

@[simp] theorem length_pushU64 (v : UInt64) : (pushU64 v).length = 8 := length_leBytes 8 v.toNat

@[simp] theorem length_pushU32 (v : UInt32) : (pushU32 v).length = 4 := length_leBytes 4 v.toNat

@[simp] theorem length_pushFees (fees : BasicFeesPerGas) : (pushFees fees).length = 96 := by
  simp [pushFees]

/-- A window read as a machine word: `ofNat` and `toNat` go between words and the numbers below
`256 ^ n`. -/
theorem readWord_eq_ok_iff {α : Type} {n : Nat} (positive : 0 < n) (context : String)
    {ofNat : Nat → α} {toNat : α → Nat} (bounded : ∀ v, toNat v < 256 ^ n)
    (ofNat_toNat : ∀ v, ofNat (toNat v) = v) (toNat_ofNat : ∀ k < 256 ^ n, toNat (ofNat k) = k)
    (bytes : List UInt8) (offset : Nat) (v : α) :
    (readWindow n context bytes offset >>= fun w => .ok (ofNat (leNat w.toList))) = .ok v ↔
      FieldAt bytes offset (leBytes n (toNat v)) := by
  rw [bind_eq_ok_iff]
  constructor
  · rintro ⟨w, hw, hv⟩
    obtain rfl := Except.ok.inj hv
    have hlt := leNat_lt w.toList
    rw [w.toList_length] at hlt
    have hbytes := leBytes_leNat w.toList
    rw [w.toList_length] at hbytes
    rw [toNat_ofNat _ hlt, hbytes]
    exact (readWindow_eq_ok_iff positive _ bytes offset w).mp hw
  · intro h
    refine ⟨⟨leBytes n (toNat v), length_leBytes n _⟩,
      (readWindow_eq_ok_iff positive _ _ _ _).mpr h, ?_⟩
    change Except.ok (ofNat (leNat (leBytes n (toNat v)))) = _
    rw [leNat_leBytes, Nat.mod_eq_of_lt (bounded v), ofNat_toNat]

theorem readU64_eq_ok_iff (bytes : List UInt8) (offset : Nat) (v : UInt64) :
    readU64 bytes offset = .ok v ↔ FieldAt bytes offset (pushU64 v) :=
  readWord_eq_ok_iff (by decide) _ (fun v => v.toNat_lt) (fun _ => UInt64.ofNat_toNat)
    (fun _ hk => UInt64.toNat_ofNat_of_lt' hk) bytes offset v

theorem readU32_eq_ok_iff (bytes : List UInt8) (offset : Nat) (v : UInt32) :
    readU32 bytes offset = .ok v ↔ FieldAt bytes offset (pushU32 v) :=
  readWord_eq_ok_iff (by decide) _ (fun v => v.toNat_lt) (fun _ => UInt32.ofNat_toNat)
    (fun _ hk => UInt32.toNat_ofNat_of_lt' hk) bytes offset v

theorem readFees_eq_ok_iff (bytes : List UInt8) (offset : Nat) (fees : BasicFeesPerGas) :
    readFees bytes offset = .ok fees ↔ FieldAt bytes offset (pushFees fees) := by
  obtain ⟨⟨⟨regular⟩⟩, ⟨⟨priority⟩⟩, ⟨⟨witness⟩⟩⟩ := fees
  simp only [pushFees, fieldAt_append, List.length_append, length_pushU256]
  simp only [readFees, bind_eq_ok_iff, readBytes32_eq_ok_iff, pushU256, Except.ok.injEq,
    BasicFeesPerGas.mk.injEq, GasPrice.mk.injEq, U256.mk.injEq]
  constructor
  · rintro ⟨_, hr, _, hp, _, hw, rfl, rfl, rfl⟩
    exact ⟨⟨hr, hp⟩, hw⟩
  · rintro ⟨⟨hr, hp⟩, hw⟩
    exact ⟨regular, hr, priority, hp, witness, hw, rfl, rfl, rfl⟩

/-! ## Payloads and authorizations -/

theorem slice_to_end {bytes : List UInt8} {start : Nat} (h : start ≤ bytes.length) :
    (slice bytes start bytes.length : Decode _) = .ok (bytes.drop start) := by
  rw [slice_eq_ok h (Nat.le_refl _), List.take_length]

/-- The offset field of a fixed part holds the constant the decoder compares it with. -/
theorem readU32_const_iff {bytes : List UInt8} {offset size : Nat} (small : size < 2 ^ 32) :
    (∃ v, readU32 bytes offset = .ok v ∧ v.toNat = size) ↔
      FieldAt bytes offset (pushU32 (UInt32.ofNat size)) := by
  constructor
  · rintro ⟨v, hv, rfl⟩
    rw [UInt32.ofNat_toNat]
    exact (readU32_eq_ok_iff bytes offset v).mp hv
  · intro h
    exact ⟨UInt32.ofNat size, (readU32_eq_ok_iff _ _ _).mpr h, UInt32.toNat_ofNat_of_lt' small⟩

/-- The end of every decoder with one variable field: the field starts where the fixed part ends,
as its offset says, and takes the rest. -/
theorem lastField_eq_ok_iff {α : Type} {bytes : List UInt8} {size : Nat} {offset : UInt32}
    {message : String} (fits : size ≤ bytes.length) (build : List UInt8 → α) (a : α) :
    (if offset.toNat ≠ size then fail message
      else do
        let rest ← slice bytes size bytes.length
        .ok (build rest) : Decode α) = .ok a ↔
      offset.toNat = size ∧ build (bytes.drop size) = a := by
  rw [slice_to_end fits, ok_bind, fail, ite_error_eq_ok_iff, not_not, Except.ok.injEq]

theorem decodeBasic_eq_ok_iff (bytes : List UInt8) (p : BasicTransactionPayload) :
    decodeBasic bytes = .ok p ↔ bytes = encodeBasic p := by
  rw [encodeBasic, eq_append_iff]
  simp only [fieldAt_append, List.length_append, length_pushU64, length_pushU32, length_pushFees,
    List.Vector.toList_length, Nat.reduceAdd, ← readU64_eq_ok_iff, ← readFees_eq_ok_iff,
    ← readAddress_eq_ok_iff, ← readBytes32_eq_ok_iff, pushU256,
    ← readU32_const_iff (show basicFixedSize < 2 ^ 32 by decide)]
  rw [decodeBasic]
  constructor
  · intro h
    split at h
    · cases h
    · rename_i hlen
      have hsize : basicFixedSize ≤ bytes.length := Nat.le_of_not_lt hlen
      obtain ⟨chainId, hchain, h⟩ := (bind_eq_ok_iff _ _ _).mp h
      obtain ⟨nonce, hnonce, h⟩ := (bind_eq_ok_iff _ _ _).mp h
      obtain ⟨gasLimit, hgas, h⟩ := (bind_eq_ok_iff _ _ _).mp h
      obtain ⟨fees, hfees, h⟩ := (bind_eq_ok_iff _ _ _).mp h
      obtain ⟨toAddress, hto, h⟩ := (bind_eq_ok_iff _ _ _).mp h
      obtain ⟨value, hvalue, h⟩ := (bind_eq_ok_iff _ _ _).mp h
      obtain ⟨inputOffset, hoffset, h⟩ := (bind_eq_ok_iff _ _ _).mp h
      obtain ⟨accessCommitment, haccess, h⟩ := (bind_eq_ok_iff _ _ _).mp h
      obtain ⟨hconst, rfl⟩ := (lastField_eq_ok_iff hsize _ _).mp h
      exact ⟨⟨⟨⟨⟨⟨⟨⟨hchain, hnonce⟩, hgas⟩, hfees⟩, hto⟩, hvalue⟩,
        ⟨inputOffset, hoffset, hconst⟩⟩, haccess⟩, rfl⟩
  · rintro ⟨⟨⟨⟨⟨⟨⟨⟨hchain, hnonce⟩, hgas⟩, hfees⟩, hto⟩, hvalue⟩, inputOffset, hoffset, hconst⟩,
      haccess⟩, hinput⟩
    have hsize : basicFixedSize ≤ bytes.length := by
      have h := ((readBytes32_eq_ok_iff _ _ _).mp haccess).length_le (by simp)
      simpa [basicFixedSize] using h
    have hrest : bytes.drop basicFixedSize = p.input := hinput
    rw [if_neg (Nat.not_lt.mpr hsize), hchain, hnonce, hgas, hfees, hto, hvalue, hoffset, haccess]
    exact (lastField_eq_ok_iff hsize _ _).mpr ⟨hconst, by rw [hrest]⟩

theorem decodeCreate_eq_ok_iff (bytes : List UInt8) (p : CreateTransactionPayload) :
    decodeCreate bytes = .ok p ↔ bytes = encodeCreate p := by
  rw [encodeCreate, eq_append_iff]
  simp only [fieldAt_append, List.length_append, length_pushU64, length_pushU32, length_pushFees,
    List.Vector.toList_length, Nat.reduceAdd, ← readU64_eq_ok_iff, ← readFees_eq_ok_iff,
    ← readBytes32_eq_ok_iff, pushU256,
    ← readU32_const_iff (show createFixedSize < 2 ^ 32 by decide)]
  rw [decodeCreate]
  constructor
  · intro h
    split at h
    · cases h
    · rename_i hlen
      have hsize : createFixedSize ≤ bytes.length := Nat.le_of_not_lt hlen
      obtain ⟨chainId, hchain, h⟩ := (bind_eq_ok_iff _ _ _).mp h
      obtain ⟨nonce, hnonce, h⟩ := (bind_eq_ok_iff _ _ _).mp h
      obtain ⟨gasLimit, hgas, h⟩ := (bind_eq_ok_iff _ _ _).mp h
      obtain ⟨fees, hfees, h⟩ := (bind_eq_ok_iff _ _ _).mp h
      obtain ⟨value, hvalue, h⟩ := (bind_eq_ok_iff _ _ _).mp h
      obtain ⟨initcodeOffset, hoffset, h⟩ := (bind_eq_ok_iff _ _ _).mp h
      obtain ⟨accessCommitment, haccess, h⟩ := (bind_eq_ok_iff _ _ _).mp h
      obtain ⟨hconst, rfl⟩ := (lastField_eq_ok_iff hsize _ _).mp h
      exact ⟨⟨⟨⟨⟨⟨⟨hchain, hnonce⟩, hgas⟩, hfees⟩, hvalue⟩,
        ⟨initcodeOffset, hoffset, hconst⟩⟩, haccess⟩, rfl⟩
  · rintro ⟨⟨⟨⟨⟨⟨⟨hchain, hnonce⟩, hgas⟩, hfees⟩, hvalue⟩, initcodeOffset, hoffset, hconst⟩,
      haccess⟩, hinitcode⟩
    have hsize : createFixedSize ≤ bytes.length := by
      have h := ((readBytes32_eq_ok_iff _ _ _).mp haccess).length_le (by simp)
      simpa [createFixedSize] using h
    have hrest : bytes.drop createFixedSize = p.initcode := hinitcode
    rw [if_neg (Nat.not_lt.mpr hsize), hchain, hnonce, hgas, hfees, hvalue, hoffset, haccess]
    exact (lastField_eq_ok_iff hsize _ _).mpr ⟨hconst, by rw [hrest]⟩

/-- The authorization encoder never fails. -/
def authorizationBytes (a : Authorization) : List UInt8 :=
  a.schemeId :: a.payloadRoot.toList ++ pushU32 (UInt32.ofNat authorizationFixedSize) ++
    a.signature

theorem encodeAuthorization_eq (a : Authorization) :
    encodeAuthorization a = .ok (authorizationBytes a) := rfl

theorem length_authorizationBytes (a : Authorization) :
    (authorizationBytes a).length = authorizationFixedSize + a.signature.length := by
  simp [authorizationBytes, authorizationFixedSize]
  omega

theorem index_zero_eq_ok_iff {bytes : List UInt8} {b : UInt8} :
    (index bytes 0 : Decode UInt8) = .ok b ↔ FieldAt bytes 0 [b] := by
  cases bytes with
  | nil => simp [index, FieldAt]
  | cons a rest => simp [index, FieldAt]

theorem decodeAuthorization_eq_ok_iff (bytes : List UInt8) (a : Authorization) :
    decodeAuthorization bytes = .ok a ↔ encodeAuthorization a = .ok bytes := by
  rw [encodeAuthorization_eq, Except.ok.injEq, eq_comm (a := authorizationBytes a),
    authorizationBytes, ← List.singleton_append, eq_append_iff]
  simp only [fieldAt_append, List.length_append, List.length_singleton, length_pushU32,
    List.Vector.toList_length, Nat.reduceAdd, ← readBytes32_eq_ok_iff, ← index_zero_eq_ok_iff,
    ← readU32_const_iff (show authorizationFixedSize < 2 ^ 32 by decide)]
  rw [decodeAuthorization]
  constructor
  · intro h
    split at h
    · cases h
    · rename_i hlen
      have hsize : authorizationFixedSize ≤ bytes.length := Nat.le_of_not_lt hlen
      obtain ⟨schemeId, hscheme, h⟩ := (bind_eq_ok_iff _ _ _).mp h
      obtain ⟨payloadRoot, hroot, h⟩ := (bind_eq_ok_iff _ _ _).mp h
      obtain ⟨signatureOffset, hoffset, h⟩ := (bind_eq_ok_iff _ _ _).mp h
      obtain ⟨hconst, rfl⟩ := (lastField_eq_ok_iff hsize _ _).mp h
      exact ⟨⟨⟨hscheme, hroot⟩, ⟨signatureOffset, hoffset, hconst⟩⟩, rfl⟩
  · rintro ⟨⟨⟨hscheme, hroot⟩, signatureOffset, hoffset, hconst⟩, hsignature⟩
    have hsize : authorizationFixedSize ≤ bytes.length := by
      have h := ((readU32_eq_ok_iff _ _ _).mp hoffset).length_le (by simp)
      simpa [authorizationFixedSize] using h
    have hrest : bytes.drop authorizationFixedSize = a.signature := hsignature
    rw [if_neg (Nat.not_lt.mpr hsize), hscheme, hroot, hoffset]
    exact (lastField_eq_ok_iff hsize _ _).mpr ⟨hconst, by rw [hrest]⟩

/-- The tag gate leaves three outcomes; the branch behind both tags is not one of them. -/
theorem decodePayload_cons (tag : UInt8) (inner : List UInt8) :
    decodePayload (tag :: inner) =
      if tag = TransactionPayloadSsz.tagBasic then do
        let p ← decodeBasic inner
        .ok ⟨.basic p⟩
      else if tag = TransactionPayloadSsz.tagCreate then do
        let p ← decodeCreate inner
        .ok ⟨.create p⟩
      else .error (.error (.unsupportedPayloadVariant tag)) := by
  have hslice : (slice (tag :: inner) 1 (tag :: inner).length : Decode _) = .ok inner :=
    slice_to_end (by simp)
  have hindex : (index (tag :: inner) 0 : Decode UInt8) = .ok tag := rfl
  rw [decodePayload, if_neg (by simp), hindex]
  by_cases hbasic : tag = TransactionPayloadSsz.tagBasic
  · simp only [TransactionPayloadSsz.ensureSupportedTag, hbasic, true_or, if_true, bind,
      Except.bind, Except.mapError] at hslice ⊢
    rw [hslice]
  · by_cases hcreate : tag = TransactionPayloadSsz.tagCreate
    · simp only [TransactionPayloadSsz.ensureSupportedTag, hcreate, or_true, if_true, bind,
        Except.bind, Except.mapError] at hslice ⊢
      rw [hslice]
    · simp only [TransactionPayloadSsz.ensureSupportedTag, hbasic, hcreate, or_self, if_false,
        bind, Except.bind, Except.mapError]

theorem decodePayload_eq_ok_iff (bytes : List UInt8) (p : TransactionPayloadSsz) :
    decodePayload bytes = .ok p ↔ encodePayload p = .ok bytes := by
  cases bytes with
  | nil => obtain ⟨p | p⟩ := p <;> simp [decodePayload, encodePayload, fail]
  | cons tag inner =>
    rw [decodePayload_cons]
    obtain ⟨p | p⟩ := p
    · constructor
      · intro h
        split at h
        · rename_i hbasic
          obtain ⟨q, hq, h⟩ := (bind_eq_ok_iff _ _ _).mp h
          obtain rfl : q = p := by simpa using h
          rw [(decodeBasic_eq_ok_iff inner q).mp hq, hbasic]
          rfl
        · split at h
          · obtain ⟨q, _, h⟩ := (bind_eq_ok_iff _ _ _).mp h
            simp at h
          · cases h
      · intro h
        obtain ⟨rfl, rfl⟩ := List.cons.inj (Except.ok.inj h)
        rw [TransactionPayloadSsz.protocolTag_basic, if_pos rfl,
          (decodeBasic_eq_ok_iff _ p).mpr rfl]
        rfl
    · constructor
      · intro h
        split at h
        · obtain ⟨q, _, h⟩ := (bind_eq_ok_iff _ _ _).mp h
          simp at h
        · split at h
          · rename_i hcreate
            obtain ⟨q, hq, h⟩ := (bind_eq_ok_iff _ _ _).mp h
            obtain rfl : q = p := by simpa using h
            rw [(decodeCreate_eq_ok_iff inner q).mp hq, hcreate]
            rfl
          · cases h
      · intro h
        obtain ⟨rfl, rfl⟩ := List.cons.inj (Except.ok.inj h)
        rw [TransactionPayloadSsz.protocolTag_create, if_neg (by decide), if_pos rfl,
          (decodeCreate_eq_ok_iff _ p).mpr rfl]
        rfl

/-! ## The authorization list -/

open OffsetTable

/-- The bytes of an offset table. -/
def offsetTable (offsets : List Nat) : List UInt8 :=
  offsets.flatMap fun o => pushU32 (UInt32.ofNat o)

/-- The offsets the list encoder writes for these authorizations. -/
def listOffsets (authorizations : List Authorization) : List Nat :=
  startOffsets (authorizations.length * 4) (authorizations.map authorizationBytes)

theorem length_offsetTable (offsets : List Nat) :
    (offsetTable offsets).length = offsets.length * 4 := by
  simp [offsetTable]

theorem checkedUsize_eq_ok_iff (n : Nat) (context : String) (m : Nat) :
    checkedUsize n context = .ok m ↔ n ≤ usizeMax ∧ m = n := by
  rw [checkedUsize]
  split <;> simp_all [eq_comm]

theorem toNat_le_u32Max (v : UInt32) : v.toNat ≤ u32Max :=
  Nat.le_sub_one_of_lt v.toNat_lt

theorem toNat_ofNat_of_le {n : Nat} (small : n ≤ u32Max) : (UInt32.ofNat n).toNat = n := by
  apply UInt32.toNat_ofNat_of_lt'
  rw [u32Max] at small
  change n < 2 ^ 32
  omega

theorem tryU32_eq_ok_iff (n : Nat) (context : String) (v : UInt32) :
    tryU32 n context = .ok v ↔ n ≤ u32Max ∧ v = UInt32.ofNat n := by
  rw [tryU32]
  split <;> simp_all [eq_comm]

/-- What the loop of the list encoder adds to its accumulators, and when it gets through. -/
theorem encodeEntries_eq_ok_iff (as : List Authorization) (out : List UInt8)
    (parts : List (List UInt8)) (next : Nat) (fits : next ≤ usizeMax)
    (r : List UInt8 × List (List UInt8)) :
    encodeEntries as out parts next = .ok r ↔
      (∀ o ∈ startOffsets next (as.map authorizationBytes), o ≤ u32Max) ∧
      next + (as.map authorizationBytes).flatten.length ≤ usizeMax ∧
      r = (out ++ offsetTable (startOffsets next (as.map authorizationBytes)),
        parts ++ as.map authorizationBytes) := by
  induction as generalizing out parts next with
  | nil => simp [encodeEntries, startOffsets, offsetTable, fits, eq_comm]
  | cons a rest ih =>
    simp only [encodeEntries, encodeAuthorization_eq, bind_eq_ok_iff, Except.ok.injEq,
      tryU32_eq_ok_iff, checkedUsize_eq_ok_iff]
    simp only [List.map_cons, startOffsets, List.forall_mem_cons, List.flatten_cons,
      List.length_append]
    constructor
    · rintro ⟨_, rfl, _, ⟨hnext, rfl⟩, _, ⟨hfits, rfl⟩, h⟩
      obtain ⟨hrest, htotal, rfl⟩ := (ih _ _ _ hfits).mp h
      refine ⟨⟨hnext, hrest⟩, by omega, ?_⟩
      simp [offsetTable]
    · rintro ⟨⟨hnext, hrest⟩, htotal, rfl⟩
      have hfits : next + (authorizationBytes a).length ≤ usizeMax := by omega
      refine ⟨_, rfl, _, ⟨hnext, rfl⟩, _, ⟨hfits, rfl⟩, (ih _ _ _ hfits).mpr ?_⟩
      exact ⟨hrest, by omega, by simp [offsetTable]⟩

theorem encodeAuthorizationList_eq_ok_iff (as : List Authorization) (b : List UInt8) :
    encodeAuthorizationList as = .ok b ↔
      (∀ o ∈ listOffsets as, o ≤ u32Max) ∧ b.length ≤ usizeMax ∧
      b = offsetTable (listOffsets as) ++ (as.map authorizationBytes).flatten := by
  have hlen : (offsetTable (listOffsets as) ++ (as.map authorizationBytes).flatten).length =
      as.length * 4 + (as.map authorizationBytes).flatten.length := by
    simp [length_offsetTable, listOffsets]
  simp only [encodeAuthorizationList, bind_eq_ok_iff, checkedUsize_eq_ok_iff]
  constructor
  · rintro ⟨_, ⟨hfits, rfl⟩, ⟨out, parts⟩, hentries, h⟩
    obtain ⟨hoffsets, htotal, hr⟩ := (encodeEntries_eq_ok_iff _ _ _ _ hfits _).mp hentries
    obtain ⟨rfl, rfl⟩ := Prod.mk.inj hr
    obtain rfl := Except.ok.inj h
    refine ⟨hoffsets, ?_, rfl⟩
    exact Nat.le_trans (Nat.le_of_eq hlen) htotal
  · rintro ⟨hoffsets, hfits, rfl⟩
    rw [hlen] at hfits
    have htable : as.length * 4 ≤ usizeMax := by omega
    exact ⟨_, ⟨htable, rfl⟩, _,
      (encodeEntries_eq_ok_iff _ _ _ _ htable _).mpr ⟨hoffsets, hfits, rfl⟩, rfl⟩

/-- One round of the offset loop accepts the offset that stands in its slot. -/
theorem readElementOffset_eq_ok_iff (bytes : List UInt8) (firstOffset i o : Nat) :
    readElementOffset bytes firstOffset i = .ok o ↔
      FieldAt bytes (0 + i * 4) (pushU32 (UInt32.ofNat o)) ∧ o ≤ u32Max ∧ firstOffset ≤ o ∧
        o ≤ bytes.length := by
  rw [readElementOffset, bind_eq_ok_iff, Nat.zero_add]
  constructor
  · rintro ⟨v, hv, h⟩
    split at h
    · cases h
    · rename_i hrange
      obtain rfl := Except.ok.inj h
      rw [UInt32.ofNat_toNat]
      exact ⟨(readU32_eq_ok_iff _ _ _).mp hv, toNat_le_u32Max v, by omega, by omega⟩
  · rintro ⟨hfield, hmax, hlow, hhigh⟩
    have hv := toNat_ofNat_of_le hmax
    refine ⟨UInt32.ofNat o, (readU32_eq_ok_iff _ _ _).mpr hfield, ?_⟩
    rw [if_neg (by omega), hv]

/-- One round of the element loop accepts an element whose encoding is its cut. -/
theorem decodeElement_eq_ok_iff (bytes : List UInt8) (offsets : List Nat) (i : Nat)
    (inside : ∀ o ∈ offsets, o ≤ bytes.length) (a : Authorization) :
    decodeElement bytes offsets i = .ok a ↔
      ∃ start, offsets[i]? = some start ∧ start ≤ offsets[i + 1]?.getD bytes.length ∧
        (cuts bytes offsets)[i]? = some (authorizationBytes a) := by
  have hstop := OffsetTable.getD_offset_le inside (i + 1)
  rw [decodeElement, getElem?_cuts]
  cases hi : offsets[i]? with
  | none => simp [bind, Except.bind]
  | some start =>
    simp only [bind, Except.bind, Option.some.injEq, Option.map_some]
    by_cases horder : start ≤ offsets[i + 1]?.getD bytes.length
    · rw [if_neg (Nat.not_lt.mpr horder), slice_eq_ok horder hstop]
      change decodeAuthorization _ = _ ↔ _
      rw [decodeAuthorization_eq_ok_iff, encodeAuthorization_eq, Except.ok.injEq]
      constructor
      · intro h
        exact ⟨start, rfl, horder, h.symm⟩
      · rintro ⟨_, rfl, _, h⟩
        exact h.symm
    · rw [if_pos (Nat.lt_of_not_le horder)]
      constructor
      · intro h
        cases h
      · rintro ⟨_, rfl, h, _⟩
        exact absurd h horder

/-- The offset loop reads a whole table of offsets that point into the section. -/
theorem offsetLoop_eq_ok_iff (bytes : List UInt8) (firstOffset count : Nat) (offsets : List Nat) :
    (List.range count).mapM (readElementOffset bytes firstOffset) = .ok offsets ↔
      offsets.length = count ∧ FieldAt bytes 0 (offsetTable offsets) ∧
        ∀ o ∈ offsets, o ≤ u32Max ∧ firstOffset ≤ o ∧ o ≤ bytes.length := by
  rw [mapM_range_eq_ok_iff, offsetTable, fieldAt_flatMap _ (fun _ => length_pushU32 _)]
  simp only [readElementOffset_eq_ok_iff]
  constructor
  · rintro ⟨hlen, h⟩
    refine ⟨hlen, fun i o ho => (h i o ho).1, ?_⟩
    intro o ho
    obtain ⟨i, hi⟩ := List.mem_iff_getElem?.mp ho
    exact (h i o hi).2
  · rintro ⟨hlen, hslots, hrange⟩
    exact ⟨hlen, fun i o ho => ⟨hslots i o ho, hrange o (List.mem_of_getElem? ho)⟩⟩

/-- The element loop accepts offsets in order whose cuts are encoded authorizations. -/
theorem elementLoop_eq_ok_iff (bytes : List UInt8) (offsets : List Nat)
    (inside : ∀ o ∈ offsets, o ≤ bytes.length) (as : List Authorization) :
    (List.range offsets.length).mapM (decodeElement bytes offsets) = .ok as ↔
      Monotonic bytes offsets ∧ cuts bytes offsets = as.map authorizationBytes := by
  rw [mapM_range_eq_ok_iff, monotonic_iff bytes offsets inside]
  simp only [decodeElement_eq_ok_iff bytes offsets _ inside]
  constructor
  · rintro ⟨hlen, h⟩
    constructor
    · intro i start hi
      have hlt : i < as.length := by
        have := (List.getElem?_eq_some_iff.mp hi).1
        omega
      obtain ⟨s, hs, horder, _⟩ := h i as[i] (List.getElem?_eq_getElem hlt)
      obtain rfl : start = s := Option.some.inj (hi.symm.trans hs)
      exact horder
    · apply List.ext_getElem?
      intro i
      rw [List.getElem?_map]
      cases ha : as[i]? with
      | some a =>
        obtain ⟨_, _, _, hcut⟩ := h i a ha
        exact hcut
      | none =>
        rw [List.getElem?_eq_none_iff] at ha
        rw [Option.map_none, List.getElem?_eq_none_iff, length_cuts]
        omega
  · rintro ⟨horder, hcuts⟩
    have hlen := congrArg List.length hcuts
    rw [length_cuts, List.length_map] at hlen
    refine ⟨hlen.symm, ?_⟩
    intro i a ha
    have hlt : i < offsets.length := by
      have := (List.getElem?_eq_some_iff.mp ha).1
      omega
    have hi := List.getElem?_eq_getElem hlt
    refine ⟨offsets[i], hi, horder i _ hi, ?_⟩
    rw [hcuts, List.getElem?_map, ha, Option.map_some]

/-- Accepted bytes are the encoding: the table holds the start offsets of the cuts. -/
theorem decodeAuthorizationList_canonical {b : List UInt8} {as : List Authorization}
    (fits : b.length ≤ usizeMax) (h : decodeAuthorizationList b = .ok as) :
    encodeAuthorizationList as = .ok b := by
  rw [encodeAuthorizationList_eq_ok_iff]
  rw [decodeAuthorizationList] at h
  split at h
  · rename_i hempty
    obtain rfl := List.isEmpty_iff.mp hempty
    obtain rfl := Except.ok.inj h
    simp [listOffsets, startOffsets, offsetTable]
  · obtain ⟨first, hfirst, h⟩ := (bind_eq_ok_iff _ _ _).mp h
    split at h
    · cases h
    · rename_i hmultiple
      split at h
      · cases h
      · obtain ⟨offsets, hoffsets, helements⟩ := (bind_eq_ok_iff _ _ _).mp h
        obtain ⟨hcount, htable, hrange⟩ := (offsetLoop_eq_ok_iff _ _ _ _).mp hoffsets
        rw [← hcount, elementLoop_eq_ok_iff b offsets fun o ho => (hrange o ho).2.2] at helements
        obtain ⟨hmono, hcuts⟩ := helements
        have hwhole : first.toNat / 4 * 4 = first.toNat :=
          Nat.div_mul_cancel (not_not.mp fun hn => hmultiple (Or.inr hn))
        have hlength := congrArg List.length hcuts
        rw [length_cuts, List.length_map] at hlength
        cases offsets with
        | nil =>
          rw [List.length_nil] at hcount
          omega
        | cons start rest =>
          have hstart : start = first.toNat := by
            have hv := (readU32_eq_ok_iff b 0 (UInt32.ofNat start)).mpr
              ((fieldAt_append b 0 _ _).mp htable).1
            rw [hfirst, Except.ok.injEq] at hv
            rw [hv, toNat_ofNat_of_le (hrange start List.mem_cons_self).1]
          obtain ⟨hstarts, hflat⟩ := startOffsets_cuts hmono
          rw [hcuts] at hstarts hflat
          have hbase : as.length * 4 = start := by omega
          have hlist : listOffsets as = start :: rest := by rw [listOffsets, hbase, hstarts]
          rw [hlist]
          refine ⟨fun o ho => (hrange o ho).1, fits, (eq_append_iff _ _ _).mpr ⟨htable, ?_⟩⟩
          rw [length_offsetTable, hlength, hbase, hflat]

/-- Written bytes are accepted and give the authorizations back. -/
theorem decodeAuthorizationList_encode {b : List UInt8} {as : List Authorization}
    (h : encodeAuthorizationList as = .ok b) : decodeAuthorizationList b = .ok as := by
  obtain ⟨hmax, _, hb⟩ := (encodeAuthorizationList_eq_ok_iff as b).mp h
  cases as with
  | nil =>
    simp only [listOffsets, startOffsets, offsetTable, List.map_nil, List.flatMap_nil,
      List.flatten_nil, List.append_nil] at hb
    subst hb
    rfl
  | cons a rest =>
    obtain ⟨htable, hflat⟩ := (eq_append_iff _ _ _).mp hb
    have hcount : (listOffsets (a :: rest)).length = (a :: rest).length := by simp [listOffsets]
    rw [length_offsetTable, hcount] at hflat
    have hlen : (a :: rest).length * 4 ≤ b.length := by
      rw [hb, List.length_append, length_offsetTable, hcount]
      omega
    have htotal := congrArg List.length hflat
    rw [List.length_drop] at htotal
    obtain ⟨hcuts, hmono⟩ := cuts_startOffsets hlen hflat
    have hrange : ∀ o ∈ listOffsets (a :: rest),
        o ≤ u32Max ∧ (a :: rest).length * 4 ≤ o ∧ o ≤ b.length := by
      intro o ho
      have hbounds := startOffsets_bounds ho
      exact ⟨hmax o ho, hbounds.1, by omega⟩
    -- The first slot of the table holds the size of the table.
    have hsize : (UInt32.ofNat ((a :: rest).length * 4)).toNat = (a :: rest).length * 4 :=
      toNat_ofNat_of_le (hmax _ List.mem_cons_self)
    have hread : readU32 b 0 = .ok (UInt32.ofNat ((a :: rest).length * 4)) :=
      (readU32_eq_ok_iff _ _ _).mpr ((fieldAt_append b 0 _ _).mp htable).1
    have hpositive : 0 < (a :: rest).length := Nat.succ_pos _
    have hoffsets := (offsetLoop_eq_ok_iff b ((a :: rest).length * 4) (a :: rest).length _).mpr
      ⟨hcount, htable, hrange⟩
    have helements := (elementLoop_eq_ok_iff b _ (fun o ho => (hrange o ho).2.2) (a :: rest)).mpr
      ⟨hmono, hcuts⟩
    rw [hcount] at helements
    rw [decodeAuthorizationList, if_neg (by simp [← List.length_eq_zero_iff]; omega), hread]
    simp only [bind, Except.bind, hsize]
    rw [if_neg (by omega), if_neg (by omega), Nat.mul_div_cancel _ (by decide), hoffsets]
    exact helements

theorem decodeAuthorizationList_eq_ok_iff {b : List UInt8} (fits : b.length ≤ usizeMax)
    (as : List Authorization) :
    decodeAuthorizationList b = .ok as ↔ encodeAuthorizationList as = .ok b :=
  ⟨decodeAuthorizationList_canonical fits, decodeAuthorizationList_encode⟩

/-! ## Envelopes -/

/-- The payload encoder never fails. -/
def payloadBytes (p : TransactionPayloadSsz) : List UInt8 :=
  match p.payload with
  | .basic q => p.protocolTag :: encodeBasic q
  | .create q => p.protocolTag :: encodeCreate q

theorem encodePayload_eq (p : TransactionPayloadSsz) : encodePayload p = .ok (payloadBytes p) := by
  obtain ⟨p | p⟩ := p <;> rfl

theorem encodeEnvelope_eq_ok_iff (e : TransactionEnvelope) (b : List UInt8) :
    encodeEnvelope e = .ok b ↔
      envelopeFixedSize + (payloadBytes e.payload).length ≤ u32Max ∧
      ∃ tail, encodeAuthorizationList e.authorizations = .ok tail ∧
        b = pushU32 (UInt32.ofNat envelopeFixedSize) ++
          pushU32 (UInt32.ofNat (envelopeFixedSize + (payloadBytes e.payload).length)) ++
          payloadBytes e.payload ++ tail := by
  simp only [encodeEnvelope, bind_eq_ok_iff, encodePayload_eq, checkedUsize_eq_ok_iff,
    tryU32_eq_ok_iff, Except.ok.injEq]
  constructor
  · rintro ⟨_, rfl, tail, htail, _, ⟨_, rfl⟩, _, ⟨hmax, rfl⟩, rfl⟩
    exact ⟨hmax, tail, htail, rfl⟩
  · rintro ⟨hmax, tail, htail, rfl⟩
    have hfits : envelopeFixedSize + (payloadBytes e.payload).length ≤ usizeMax :=
      Nat.le_trans hmax (by decide)
    exact ⟨_, rfl, tail, htail, _, ⟨hfits, rfl⟩, _, ⟨hmax, rfl⟩, rfl⟩

/-- The envelope decoder reads two offsets and hands both sections on. -/
theorem decodeEnvelope_eq_ok_iff (b : List UInt8) (e : TransactionEnvelope) :
    decodeEnvelope b = .ok e ↔
      ∃ split, split ≤ u32Max ∧ envelopeFixedSize ≤ split ∧ split ≤ b.length ∧
        FieldAt b 0 (pushU32 (UInt32.ofNat envelopeFixedSize)) ∧
        FieldAt b 4 (pushU32 (UInt32.ofNat split)) ∧
        decodePayload ((b.take split).drop envelopeFixedSize) = .ok e.payload ∧
        decodeAuthorizationList (b.drop split) = .ok e.authorizations := by
  rw [decodeEnvelope]
  constructor
  · intro h
    split at h
    · cases h
    · obtain ⟨payloadOffset, hpayload, h⟩ := (bind_eq_ok_iff _ _ _).mp h
      obtain ⟨split, hsplit, h⟩ := (bind_eq_ok_iff _ _ _).mp h
      split at h
      · cases h
      · rename_i hconst
        rw [not_not] at hconst
        split at h
        · cases h
        · rename_i hrange
          rw [hconst] at hrange
          have hlow : envelopeFixedSize ≤ split.toNat := by omega
          have hhigh : split.toNat ≤ b.length := by omega
          rw [hconst, slice_eq_ok hlow hhigh, slice_to_end hhigh, ok_bind] at h
          obtain ⟨payload, hp, h⟩ := (bind_eq_ok_iff _ _ _).mp h
          rw [ok_bind] at h
          obtain ⟨authorizations, ha, h⟩ := (bind_eq_ok_iff _ _ _).mp h
          obtain rfl := Except.ok.inj h
          refine ⟨split.toNat, toNat_le_u32Max split, hlow, hhigh, ?_, ?_, hp, ha⟩
          · exact (readU32_const_iff (by decide)).mp ⟨payloadOffset, hpayload, hconst⟩
          · rw [UInt32.ofNat_toNat]
            exact (readU32_eq_ok_iff _ _ _).mp hsplit
  · rintro ⟨split, hmax, hlow, hhigh, hfirst, hsecond, hp, ha⟩
    have hv := toNat_ofNat_of_le hmax
    have hread := (readU32_eq_ok_iff _ _ _).mpr hsecond
    obtain ⟨payloadOffset, hpayload, hconst⟩ := (readU32_const_iff (by decide)).mpr hfirst
    rw [if_neg (by omega), hpayload, hread]
    simp only [bind, Except.bind, hconst, hv, ne_eq, not_true_eq_false, if_false]
    rw [if_neg (by omega), slice_eq_ok hlow hhigh, slice_to_end hhigh]
    simp only [hp, ha]

/-- The two sections of written bytes are the payload and the list. -/
theorem envelope_sections (payload tail : List UInt8) (offset : UInt32) :
    let b := pushU32 (UInt32.ofNat envelopeFixedSize) ++ pushU32 offset ++ payload ++ tail
    (b.take (envelopeFixedSize + payload.length)).drop envelopeFixedSize = payload ∧
      b.drop (envelopeFixedSize + payload.length) = tail := by
  intro b
  have hhead : (pushU32 (UInt32.ofNat envelopeFixedSize) ++ pushU32 offset).length =
      envelopeFixedSize := by simp [envelopeFixedSize]
  constructor
  · rw [List.take_left' (by rw [List.length_append, hhead]), List.drop_left' hhead]
  · exact List.drop_left' (by rw [List.length_append, hhead])

theorem decodeEnvelope_iff_encodeEnvelope {b : List UInt8} (fits : b.length ≤ usizeMax)
    (e : TransactionEnvelope) : decodeEnvelope b = .ok e ↔ encodeEnvelope e = .ok b := by
  rw [decodeEnvelope_eq_ok_iff, encodeEnvelope_eq_ok_iff]
  constructor
  · rintro ⟨split, hmax, hlow, hhigh, hfirst, hsecond, hp, ha⟩
    rw [decodePayload_eq_ok_iff, encodePayload_eq, Except.ok.injEq] at hp
    have hsize : envelopeFixedSize + (payloadBytes e.payload).length = split := by
      rw [hp, List.length_drop, List.length_take]
      omega
    have hrest : (b.drop split).length ≤ usizeMax := by
      rw [List.length_drop]
      omega
    rw [hsize]
    refine ⟨hmax, b.drop split, (decodeAuthorizationList_eq_ok_iff hrest _).mp ha, ?_⟩
    refine (eq_append_iff _ _ _).mpr ⟨?_, ?_⟩
    · refine (fieldAt_append b 0 _ _).mpr ⟨(fieldAt_append b 0 _ _).mpr ⟨hfirst, ?_⟩, ?_⟩
      · simpa using hsecond
      · rw [FieldAt, hp, List.drop_take]
        exact ⟨_, (List.take_append_drop _ _).symm⟩
    · congr 1
      simp only [List.length_append, length_pushU32]
      exact hsize
  · rintro ⟨hmax, tail, htail, rfl⟩
    obtain ⟨hpayload, hlist⟩ := envelope_sections (payloadBytes e.payload) tail
      (UInt32.ofNat (envelopeFixedSize + (payloadBytes e.payload).length))
    refine ⟨_, hmax, Nat.le_add_right _ _, ?_, ?_, ?_, ?_, ?_⟩
    · simp [envelopeFixedSize]
      omega
    · simp [FieldAt]
    · simp [FieldAt]
    · rw [hpayload, decodePayload_eq_ok_iff, encodePayload_eq]
    · rw [hlist]
      exact decodeAuthorizationList_encode htail

/-! ## When encoding fails -/

/-- The largest allocation: no vector of bytes is longer. -/
def isizeMax : Nat := 2 ^ 63 - 1

/-- Every offset the envelope encoder has to write. -/
def envelopeOffsets (e : TransactionEnvelope) : List Nat :=
  envelopeFixedSize :: (envelopeFixedSize + (payloadBytes e.payload).length) ::
    listOffsets e.authorizations

theorem eq_ok_or_error {ε α : Type} (x : Except ε α) : (∃ a, x = .ok a) ∨ ∃ e, x = .error e := by
  cases x with
  | ok a => exact Or.inl ⟨a, rfl⟩
  | error e => exact Or.inr ⟨e, rfl⟩

/-- The loop's `usize` sum cannot overflow before an offset has left `u32`. -/
theorem entries_fit_of_offsets {as : List Authorization} {next : Nat}
    (allocated : ∀ a ∈ as, a.signature.length ≤ isizeMax) (small : next ≤ isizeMax)
    (hmax : ∀ o ∈ startOffsets next (as.map authorizationBytes), o ≤ u32Max) :
    next + (as.map authorizationBytes).flatten.length ≤ usizeMax := by
  induction as generalizing next with
  | nil =>
    simp only [List.map_nil, List.flatten_nil, List.length_nil]
    exact Nat.le_trans small (by decide)
  | cons a rest ih =>
    obtain ⟨hnext, hrest⟩ := List.forall_mem_cons.mp hmax
    have hsignature := allocated a List.mem_cons_self
    have hlength := length_authorizationBytes a
    simp only [List.map_cons, List.flatten_cons, List.length_append]
    simp only [u32Max, isizeMax, usizeMax, authorizationFixedSize] at *
    cases rest with
    | nil =>
      simp only [List.map_nil, List.flatten_nil, List.length_nil]
      omega
    | cons c rest =>
      obtain ⟨hstart, _⟩ := List.forall_mem_cons.mp hrest
      have h := ih (fun d hd => allocated d (List.mem_cons_of_mem a hd)) (by omega) hrest
      omega

theorem encodeAuthorizationList_isOk_iff {as : List Authorization}
    (allocated : ∀ a ∈ as, a.signature.length ≤ isizeMax) :
    (∃ b, encodeAuthorizationList as = .ok b) ↔ ∀ o ∈ listOffsets as, o ≤ u32Max := by
  constructor
  · rintro ⟨b, hb⟩
    exact ((encodeAuthorizationList_eq_ok_iff as b).mp hb).1
  · intro hmax
    refine ⟨_, (encodeAuthorizationList_eq_ok_iff as _).mpr ⟨hmax, ?_, rfl⟩⟩
    have hlen : (offsetTable (listOffsets as)).length = as.length * 4 := by
      simp [length_offsetTable, listOffsets]
    rw [List.length_append, hlen]
    cases as with
    | nil => decide
    | cons a rest =>
      have hfirst := hmax _ List.mem_cons_self
      exact entries_fit_of_offsets allocated (Nat.le_trans hfirst (by decide)) hmax

theorem encodeEnvelope_fails_iff {e : TransactionEnvelope}
    (allocated : ∀ a ∈ e.authorizations, a.signature.length ≤ isizeMax) :
    (∃ err, encodeEnvelope e = .error err) ↔ ∃ o ∈ envelopeOffsets e, u32Max < o := by
  have hok : (∃ b, encodeEnvelope e = .ok b) ↔ ∀ o ∈ envelopeOffsets e, o ≤ u32Max := by
    have hfixed : envelopeFixedSize ≤ u32Max := by decide
    simp only [encodeEnvelope_eq_ok_iff, envelopeOffsets, List.forall_mem_cons, hfixed, true_and,
      ← encodeAuthorizationList_isOk_iff allocated]
    constructor
    · rintro ⟨_, hpayload, tail, htail, _⟩
      exact ⟨hpayload, tail, htail⟩
    · rintro ⟨hpayload, tail, htail⟩
      exact ⟨_, hpayload, tail, htail, rfl⟩
  constructor
  · rintro ⟨err, herr⟩
    by_contra hnone
    push Not at hnone
    obtain ⟨b, hb⟩ := hok.mpr hnone
    rw [herr] at hb
    cases hb
  · rintro ⟨o, ho, hlarge⟩
    rcases eq_ok_or_error (encodeEnvelope e) with hb | herr
    · have hsmall := hok.mp hb o ho
      omega
    · exact herr

/-- The wire format is a bijection between envelopes and accepted bytes, and so
are its payload and authorization parts. Encoding fails only on an offset that
does not fit its `u32` field. -/
theorem wire_format_bijective :
    (∀ (e : TransactionEnvelope) (b : List UInt8), b.length ≤ usizeMax →
      (TransactionEnvelope.fromWireBytes b = .ok e ↔ e.toWireBytes = .ok b)) ∧
    (∀ (p : TransactionPayloadSsz) (b : List UInt8),
      decodePayload b = .ok p ↔ encodePayload p = .ok b) ∧
    (∀ (a : Authorization) (b : List UInt8),
      decodeAuthorization b = .ok a ↔ encodeAuthorization a = .ok b) ∧
    ∀ e : TransactionEnvelope, (∀ a ∈ e.authorizations, a.signature.length ≤ isizeMax) →
      ((∃ err, encodeEnvelope e = .error err) ↔ ∃ o ∈ envelopeOffsets e, u32Max < o) := by
  refine ⟨?_, ?_, ?_, ?_⟩
  · intro e b fits
    exact decodeEnvelope_iff_encodeEnvelope fits e
  · intro p b
    exact decodePayload_eq_ok_iff b p
  · intro a b
    exact decodeAuthorization_eq_ok_iff b a
  · intro e allocated
    exact encodeEnvelope_fails_iff allocated

/-- A transfer of nothing with one authorization. -/
def sampleEnvelope : TransactionEnvelope where
  payload := ⟨.basic
    { chainId := ⟨⟨zeros 32⟩⟩, nonce := 1, gasLimit := 21000
      fees := ⟨⟨⟨zeros 32⟩⟩, ⟨⟨zeros 32⟩⟩, ⟨⟨zeros 32⟩⟩⟩
      toAddress := zeros 20, value := ⟨⟨zeros 32⟩⟩, input := [1, 2]
      accessCommitment := zeros 32 }⟩
  authorizations := [{ schemeId := 1, payloadRoot := zeros 32, signature := [3] }]

def sampleBytes : List UInt8 :=
  [8, 0, 0, 0, 243, 0, 0, 0] ++ payloadBytes sampleEnvelope.payload ++
    [4, 0, 0, 0] ++ sampleEnvelope.authorizations.flatMap authorizationBytes

theorem wire_format_bijective_sample :
    TransactionEnvelope.fromWireBytes sampleBytes = .ok sampleEnvelope ∧
      (∀ a ∈ sampleEnvelope.authorizations, a.signature.length ≤ isizeMax) ∧
      ¬ ∃ err, encodeEnvelope sampleEnvelope = .error err := by
  have hallocated : ∀ a ∈ sampleEnvelope.authorizations, a.signature.length ≤ isizeMax := by
    decide
  obtain ⟨henvelope, _, _, hfails⟩ := wire_format_bijective
  refine ⟨(henvelope _ _ (by decide +kernel)).mpr (by decide +kernel), hallocated, ?_⟩
  rw [hfails _ hallocated]
  decide +kernel

end ShellPrimitives.Codec
