import Mathlib.Data.Nat.Digits
import Classzz.Lib

/-! Recognising a coinbase and the height it commits to (`ExtractCoinbaseHeight`, `IsCoinBaseTx`,
`isCoinBaseInParam`, `checkSerializedHeight`), and the subsidy and sigop limits of a block. Both
classifiers read `TxIn[0]` before anything checks that there is one. -/

namespace Classzz

def OP_0 : Nat := 0x00
def OP_1 : Nat := 0x51
def OP_16 : Nat := 0x60

/-- `binary.LittleEndian.Uint64` of the bytes, the missing high bytes being zero. -/
def littleEndian : List UInt8 → Nat
  | [] => 0
  | b :: bs => b.toNat + 256 * littleEndian bs

/-- `ExtractCoinbaseHeight`: the height a coinbase's signature script starts with. -/
def ExtractCoinbaseHeight (coinbaseTx : MsgTx) : Except Fault Int32 := do
  let txIn ← index coinbaseTx.txIn 0
  match txIn.signatureScript with
  | [] =>
    throw (ruleError .errMissingCoinbaseHeight ("the coinbase signature script for greater " ++
      "must start with the length of the serialized block height"))
  | op :: rest =>
    let opcode := op.toNat
    if opcode = OP_0 then pure 0
    else if OP_1 ≤ opcode ∧ opcode ≤ OP_16 then pure (Signed.ofInt (opcode - (OP_1 - 1)))
    else
      let serializedLen := opcode
      if rest.length < serializedLen then
        throw (ruleError .errMissingCoinbaseHeight (s!"the coinbase signature script for " ++
          s!"blocks of version {serializedLen} or greater must start with the serialized " ++
          "block height"))
      else pure (Signed.ofInt (littleEndian ((rest.take serializedLen).take 8)))

theorem ExtractCoinbaseHeight_nil {tx : MsgTx} (h : tx.txIn = []) :
    ExtractCoinbaseHeight tx = .error .panic := by
  simp [ExtractCoinbaseHeight, h, index, bind, Except.bind]

theorem ExtractCoinbaseHeight_ne_panic {tx : MsgTx} (h : tx.txIn ≠ []) :
    ExtractCoinbaseHeight tx ≠ .error .panic := by
  obtain ⟨i, is, hi⟩ := List.exists_cons_of_ne_nil h
  simp only [ExtractCoinbaseHeight, hi, index, List.getElem?_cons_zero, bind, Except.bind]
  split
  · simp [throw, throwThe, MonadExceptOf.throw, Except.error.injEq, ruleError]
  · split
    · simp [pure, Except.pure]
    · split
      · simp [pure, Except.pure]
      · split <;> simp [throw, throwThe, MonadExceptOf.throw, pure, Except.pure, ruleError]

/-- The coinbase test of `IsCoinBaseTx` and `isCoinBaseInParam`, against the entangle height
`entangleHeight`: a coinbase commits to a height, has three inputs from that height on and one
before it, and its first input spends the null outpoint. -/
def coinBaseAt (entangleHeight : Int32) (msgTx : MsgTx) : Except Fault Bool :=
  match ExtractCoinbaseHeight msgTx with
  | .error .panic => .error .panic
  | .error _ => pure false
  | .ok height =>
    -- `if height >= EntangleHeight { len != 3 } else { len != 1 }`
    let inputs := if entangleHeight ≤ height then 3 else 1
    if msgTx.txIn.length ≠ inputs then pure false
    else do
      let txIn ← index msgTx.txIn 0
      let prevOut := txIn.previousOutPoint
      pure !(prevOut.index ≠ maxUint32 ∨ prevOut.hash ≠ zeroHash)

/-- `IsCoinBaseTx`, which reads the entangle height of the main network whatever the chain. -/
def IsCoinBaseTx (lib : Lib) (msgTx : MsgTx) : Except Fault Bool :=
  coinBaseAt lib.mainNetEntangleHeight msgTx

/-- `IsCoinBase(tx)`, which is `IsCoinBaseTx(tx.MsgTx())`. -/
def IsCoinBase (lib : Lib) (tx : MsgTx) : Except Fault Bool := IsCoinBaseTx lib tx

/-- `isCoinBaseInParam`, which reads the entangle height of the chain's parameters. -/
def isCoinBaseInParam (tx : MsgTx) (chainParams : Params) : Except Fault Bool :=
  coinBaseAt chainParams.entangleHeight tx

/-- `isNullOutpoint`. -/
def isNullOutpoint (outpoint : OutPoint) : Bool :=
  outpoint.index = maxUint32 ∧ outpoint.hash = zeroHash

theorem coinBaseAt_codes (entangleHeight : Int32) (tx : MsgTx) (cs : List ErrorCode) :
    RuleCodes cs (coinBaseAt entangleHeight tx) := by
  unfold coinBaseAt
  split
  · exact RuleCodes.panic
  · exact RuleCodes.pure _
  · exact RuleCodes.ite (fun _ => RuleCodes.pure _) fun _ =>
      RuleCodes.bind (RuleCodes.index _ _) fun _ _ => RuleCodes.pure _

section CoinBaseAt

variable {eh : Int32} {tx : MsgTx}

theorem coinBaseAt_cons {i : TxIn} {is : List TxIn} (h : tx.txIn = i :: is) :
    coinBaseAt eh tx = .ok (match ExtractCoinbaseHeight tx with
      | .ok height => decide (tx.txIn.length = if eh ≤ height then 3 else 1) &&
          isNullOutpoint i.previousOutPoint
      | .error _ => false) := by
  have hx := @ExtractCoinbaseHeight_ne_panic tx (by simp [h])
  unfold coinBaseAt
  split
  · contradiction
  · rename_i e _ he; rw [he]; rfl
  · rename_i height he
    simp only [he, h, index, List.getElem?_cons_zero, bind, Except.bind, pure, Except.pure,
      isNullOutpoint]
    split_ifs <;> simp_all

/-- The coinbase test panics exactly on a transaction without inputs. -/
theorem coinBaseAt_eq_panic : coinBaseAt eh tx = .error .panic ↔ tx.txIn = [] := by
  refine ⟨fun hp => ?_, fun h => by simp [coinBaseAt, ExtractCoinbaseHeight_nil h]⟩
  cases h : tx.txIn with
  | nil => rfl
  | cons i is => rw [coinBaseAt_cons h] at hp; cases hp

theorem coinBaseAt_ok (h : tx.txIn ≠ []) : ∃ c, coinBaseAt eh tx = .ok c := by
  obtain ⟨i, is, hi⟩ := List.exists_cons_of_ne_nil h
  exact ⟨_, coinBaseAt_cons hi⟩
end CoinBaseAt

/-- `checkSerializedHeight`: the coinbase commits to `wantHeight`. -/
def checkSerializedHeight (coinbaseTx : MsgTx) (wantHeight : Int32) : Except Fault Unit := do
  let serializedHeight ← ExtractCoinbaseHeight coinbaseTx
  if serializedHeight ≠ wantHeight then
    throw (ruleError .errBadCoinbaseHeight (s!"the coinbase signature script serialized " ++
      s!"block height is {serializedHeight} when {wantHeight} was expected"))
  pure ()

/-! ### The height push of a coinbase

`ExtractCoinbaseHeight` reads back every height below `2^31` that a coinbase script pushes as
`txscript` writes it, whatever follows the push: `OP_0`, a small-integer opcode, or a length
byte of 1 to 5 and the minimal script-number bytes, at most eight of which are read. -/

/-- Modelled from the spec: the bytes of `txscript.scriptNum(h).Bytes()` for `h ≥ 0`, the
minimal little-endian bytes of `h`, with a zero byte appended when the top byte has its sign
bit set. -/
def scriptNumBytes (h : Nat) : List UInt8 :=
  let bytes := (Nat.digits 256 h).map UInt8.ofNat
  match bytes.getLast? with
  | some last => if last.toNat / 128 = 1 then bytes ++ [0] else bytes
  | none => bytes

/-- Modelled from the spec: the height push a coinbase signature script starts with, as
`txscript.NewScriptBuilder().AddInt64(h)` writes it: `OP_0`, a small-integer opcode for
`1 ≤ h ≤ 16`, or a length byte and the script-number bytes. -/
def coinbaseHeightScript (h : Nat) : List UInt8 :=
  if h = 0 then [UInt8.ofNat OP_0]
  else if h ≤ 16 then [UInt8.ofNat (OP_1 + h - 1)]
  else
    let bytes := scriptNumBytes h
    UInt8.ofNat bytes.length :: bytes

example : coinbaseHeightScript 8388608 = [4, 0, 0, 128, 0] := by
  simp [coinbaseHeightScript, scriptNumBytes, Nat.digits_def', OP_0, OP_1, UInt8.size]

theorem littleEndian_map_ofNat : ∀ {ds : List Nat}, (∀ d ∈ ds, d < 256) →
    littleEndian (ds.map UInt8.ofNat) = Nat.ofDigits 256 ds
  | [], _ => rfl
  | d :: ds, h => by
    simp only [List.forall_mem_cons] at h
    simp only [List.map_cons, littleEndian, Nat.ofDigits_cons, littleEndian_map_ofNat h.2,
      UInt8.toNat_ofNat_of_lt (show d < UInt8.size from h.1)]

theorem littleEndian_append_zero : ∀ bs : List UInt8, littleEndian (bs ++ [0]) = littleEndian bs
  | [] => rfl
  | b :: bs => by
    simp only [List.cons_append, littleEndian, List.append_eq, littleEndian_append_zero bs]

theorem scriptNumBytes_spec (h : Nat) :
    littleEndian (scriptNumBytes h) = h ∧
      (scriptNumBytes h).length ≤ (Nat.digits 256 h).length + 1 := by
  have hdig : littleEndian ((Nat.digits 256 h).map UInt8.ofNat) = h := by
    rw [littleEndian_map_ofNat fun d hd => Nat.digits_lt_base (by norm_num) hd,
      Nat.ofDigits_digits]
  dsimp only [scriptNumBytes]
  split
  · split <;> simp [littleEndian_append_zero, hdig]
  · simp [hdig]

theorem digits_length_le_four {h : Nat} (hh : h < 2 ^ 31) : (Nat.digits 256 h).length ≤ 4 := by
  rcases Nat.eq_zero_or_pos h with rfl | h0
  · simp
  by_contra hlen
  have h1 := Nat.base_pow_length_digits_le 256 h (by norm_num) h0.ne'
  have h2 : 256 ^ 5 ≤ 256 ^ (Nat.digits 256 h).length :=
    Nat.pow_le_pow_right (by norm_num) (by omega)
  omega

theorem ExtractCoinbaseHeight_coinbaseHeightScript {tx : MsgTx} {txIn : TxIn} {others : List TxIn}
    {h : Nat} {rest : List UInt8} (hh : h < 2 ^ 31) (htx : tx.txIn = txIn :: others)
    (hs : txIn.signatureScript = coinbaseHeightScript h ++ rest) :
    ExtractCoinbaseHeight tx = .ok (Signed.ofInt h) := by
  simp only [ExtractCoinbaseHeight, htx, index, List.getElem?_cons_zero, bind_ok, hs]
  unfold coinbaseHeightScript
  split_ifs with h0 h16
  · subst h0; rfl
  · have hop : (UInt8.ofNat (OP_1 + h - 1)).toNat = 80 + h := by
      rw [UInt8.toNat_ofNat_of_lt] <;> simp only [OP_1, UInt8.size] <;> omega
    simp only [List.singleton_append, hop]
    simp only [OP_0, OP_1, OP_16]
    rw [if_neg (by omega), if_pos (by omega)]
    congr 2
    omega
  · obtain ⟨hval, hlen⟩ := scriptNumBytes_spec h
    have hne : scriptNumBytes h ≠ [] := fun hnil => h0 (by rw [← hval, hnil]; rfl)
    have hlen5 := digits_length_le_four hh
    have hop : (UInt8.ofNat (scriptNumBytes h).length).toNat = (scriptNumBytes h).length :=
      UInt8.toNat_ofNat_of_lt (by simp only [UInt8.size]; omega)
    have hpos := List.length_pos.mpr hne
    simp only [List.cons_append, hop, OP_0, OP_1, OP_16, List.length_append]
    rw [if_neg (by omega), if_neg (by omega), if_neg (by omega), List.take_left,
      List.take_of_length_le (by omega), hval]
    rfl

/-- A coinbase whose script starts with the push of a height `h < 2^31` has the height `h`, and
`checkSerializedHeight` accepts it at exactly that height. -/
theorem checkSerializedHeight_coinbaseHeightScript {tx : MsgTx} {txIn : TxIn}
    {others : List TxIn} {h : Nat} {rest : List UInt8} (hh : h < 2 ^ 31)
    (htx : tx.txIn = txIn :: others) (hs : txIn.signatureScript = coinbaseHeightScript h ++ rest) :
    ExtractCoinbaseHeight tx = .ok (Signed.ofInt h) ∧
      ∀ wantHeight : Int32, checkSerializedHeight tx wantHeight = .ok () ↔ wantHeight.val = h := by
  have he := ExtractCoinbaseHeight_coinbaseHeightScript hh htx hs
  have hval : (Signed.ofInt h : Int32).val = h := by
    exact wrap_of_fits (by decide) (by omega) (by omega)
  refine ⟨he, fun wantHeight => ?_⟩
  rw [checkSerializedHeight, he, bind_ok]
  split
  · rename_i hne
    exact iff_of_false (by rintro ⟨⟩) fun hw => hne (Signed.ext (by rw [hval, hw]))
  · rename_i heq
    rw [not_not] at heq
    subst heq
    exact iff_of_true rfl hval

/-- A coinbase whose script pushes the height `2^23`, which needs the zero sign byte, followed by
one more byte. -/
def paddedHeightCoinbase : MsgTx :=
  ⟨[⟨⟨zeroHash, maxUint32⟩, coinbaseHeightScript 8388608 ++ [7], 0xffffffff⟩], [], 0⟩

theorem checkSerializedHeight_coinbaseHeightScript_padded :
    8388608 < 2 ^ 31 ∧ ExtractCoinbaseHeight paddedHeightCoinbase = .ok (Signed.ofInt 8388608) ∧
      ∀ wantHeight : Int32, checkSerializedHeight paddedHeightCoinbase wantHeight = .ok () ↔
        wantHeight.val = 8388608 :=
  ⟨by norm_num, checkSerializedHeight_coinbaseHeightScript (by norm_num) rfl rfl⟩

/-- The constant `baseSubsidy`, `1000 * SatoshiPerBitcoin`. -/
def baseSubsidy (lib : Lib) : Nat := 1000 * lib.satoshiPerBitcoin

def toUint (x : Int32) : Nat := (x.val % 2 ^ 64).toNat

/-- `CalcBlockSubsidy`: the base subsidy divided by the number of reduction intervals
passed (not halved), and at least one. -/
def CalcBlockSubsidy (lib : Lib) (height : Int32) (chainParams : Params) : Int64 :=
  if chainParams.subsidyReductionInterval = 0 then Signed.ofInt (baseSubsidy lib)
  else
    let halvings := toUint (height / chainParams.subsidyReductionInterval)
    if halvings = 0 then Signed.ofInt (baseSubsidy lib)
    else
      let subsidy : Int64 := Signed.ofInt (baseSubsidy lib / halvings)
      if subsidy = 0 then 1 else subsidy

theorem CalcBlockSubsidy_val {lib : Lib} {chainParams : Params} {height : Int32}
    (hI : 0 < chainParams.subsidyReductionInterval.val) (hB : baseSubsidy lib < 2 ^ 63)
    (h0 : 0 ≤ height.val) :
    (CalcBlockSubsidy lib height chainParams).val =
      ((if (height.val / chainParams.subsidyReductionInterval.val).toNat = 0 then baseSubsidy lib
        else max 1 (baseSubsidy lib / (height.val / chainParams.subsidyReductionInterval.val).toNat)
        : Nat) : Int) := by
  have hne : chainParams.subsidyReductionInterval ≠ 0 := fun h => by
    rw [h] at hI; exact absurd hI (by decide)
  have hq0 : 0 ≤ height.val / chainParams.subsidyReductionInterval.val := Int.ediv_nonneg h0 hI.le
  have hq1 : height.val / chainParams.subsidyReductionInterval.val ≤ height.val :=
    Int.ediv_le_self _ h0
  have hhalvings : toUint (height / chainParams.subsidyReductionInterval) =
      (height.val / chainParams.subsidyReductionInterval.val).toNat := by
    have := height.hi
    have hw : wrap 32 (height.val / chainParams.subsidyReductionInterval.val) =
        height.val / chainParams.subsidyReductionInterval.val :=
      wrap_of_fits (by decide) (by omega) (by omega)
    simp only [toUint, Signed.val_div, Int.tdiv_eq_ediv h0 hI.le, hw]
    rw [Int.emod_eq_of_lt hq0 (by omega)]
  have hfit : ∀ n : Nat, n ≤ baseSubsidy lib → (Signed.ofInt n : Int64).val = n := fun n hn =>
    wrap_of_fits (by decide) (by omega) (by omega)
  simp only [CalcBlockSubsidy, hne, if_false, hhalvings]
  generalize (height.val / chainParams.subsidyReductionInterval.val).toNat = n
  have hdiv := Nat.div_le_self (baseSubsidy lib) n
  have hcast : (baseSubsidy lib : Int) / n = ((baseSubsidy lib / n : Nat) : Int) := by norm_cast
  split_ifs with hn hs
  · exact hfit _ le_rfl
  · have h0' : baseSubsidy lib / n = 0 := by
      have := congrArg Signed.val hs
      rw [hcast, hfit _ hdiv, Signed.val_zero] at this
      exact_mod_cast this
    rw [h0']; rfl
  · have h1 : 1 ≤ baseSubsidy lib / n := Nat.pos_of_ne_zero fun h0' =>
      hs (Signed.ext (by rw [hcast, hfit _ hdiv, h0']; rfl))
    rw [hcast, hfit _ hdiv, Nat.max_eq_right h1]

/-- With a positive interval and a positive base that fits in an `int64`, the subsidy never
grows as the chain does: from height 0 on it is at most the base, falls with each interval, and
never reaches 0. -/
theorem CalcBlockSubsidy_antitone {lib : Lib} {chainParams : Params} {h1 h2 : Int32}
    (hI : 0 < chainParams.subsidyReductionInterval.val) (hB0 : 0 < baseSubsidy lib)
    (hB : baseSubsidy lib < 2 ^ 63) (h0 : 0 ≤ h1.val) (h12 : h1.val ≤ h2.val) :
    1 ≤ (CalcBlockSubsidy lib h2 chainParams).val ∧
      (CalcBlockSubsidy lib h2 chainParams).val ≤ (CalcBlockSubsidy lib h1 chainParams).val ∧
      (CalcBlockSubsidy lib h1 chainParams).val ≤ baseSubsidy lib := by
  rw [CalcBlockSubsidy_val hI hB h0, CalcBlockSubsidy_val hI hB (h0.trans h12)]
  have hn := Int.toNat_le_toNat (Int.ediv_le_ediv hI h12)
  generalize (h1.val / chainParams.subsidyReductionInterval.val).toNat = n1 at hn
  generalize (h2.val / chainParams.subsidyReductionInterval.val).toNat = n2 at hn
  simp only [Nat.one_le_cast, Nat.cast_le]
  have hB1 := Nat.div_le_self (baseSubsidy lib) n1
  have hB2 := Nat.div_le_self (baseSubsidy lib) n2
  split_ifs with h2z h1z h1z
  · omega
  · omega
  · omega
  · have := @Nat.div_le_div_left (baseSubsidy lib) _ _ hn (Nat.pos_of_ne_zero h1z)
    omega

theorem CalcBlockSubsidy_antitone_sample :
    1 ≤ (CalcBlockSubsidy Lib.sample 630000 Params.sample).val ∧
      (CalcBlockSubsidy Lib.sample 630000 Params.sample).val ≤
        (CalcBlockSubsidy Lib.sample 420000 Params.sample).val ∧
      (CalcBlockSubsidy Lib.sample 420000 Params.sample).val ≤ baseSubsidy Lib.sample :=
  CalcBlockSubsidy_antitone (by decide) (by decide) (by decide) (by decide) (by decide)

def oneMegabyte : Int := 1000000
def MaxBlockSigOpsPerMB : Int := 20000

/-- `MaxBlockSigOps`: 20000 sigops for each started megabyte of the serialized block. -/
def MaxBlockSigOps (nBlockBytes : UInt32) : Int64 :=
  Signed.ofInt ((1 + (nBlockBytes.toNat - 1 : Int).tdiv oneMegabyte) * MaxBlockSigOpsPerMB)

theorem MaxBlockSigOps_val_mem (nBlockBytes : UInt32) :
    20000 ≤ (MaxBlockSigOps nBlockBytes).val ∧ (MaxBlockSigOps nBlockBytes).val ≤ 85900000 := by
  have hn := nBlockBytes.toNat_lt_size
  have hq : 0 ≤ (nBlockBytes.toNat - 1 : Int).tdiv oneMegabyte ∧
      (nBlockBytes.toNat - 1 : Int).tdiv oneMegabyte ≤ 4294 := by
    rcases Nat.eq_zero_or_pos nBlockBytes.toNat with h | h
    · rw [h]; decide
    · rw [Int.tdiv_eq_ediv (by omega) (by decide), oneMegabyte]
      simp only [UInt32.size] at hn
      omega
  simp only [MaxBlockSigOps, Signed.val_ofInt, MaxBlockSigOpsPerMB]
  rw [wrap_of_fits (by decide) (by omega) (by omega)]
  omega

end Classzz
