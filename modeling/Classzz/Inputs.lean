import Classzz.View
import Classzz.TxSanity

/-! The checks that read a transaction's inputs in the view: `CheckTransactionInputs` with
`checkMergeTxInCoinbase` and `matchPoolFromUtxo`, the sigop counts `CountP2SHSigOps` and
`GetSigOps`, and the fee-rate order `checkTxSequence`. -/

namespace Classzz

/-- `txscript.PubKeyHashTy`. -/
def pubKeyHashTy : Nat := 2

/-- The pool key hashes `CoinPool1` and `CoinPool2` of `matchPoolFromUtxo`. -/
def CoinPool1 : List UInt8 := List.replicate 19 0 ++ [1]
def CoinPool2 : List UInt8 := List.replicate 19 0 ++ [2]

/-- `matchPoolFromUtxo`. It compares the address of a constant pool key hash with the address
read from that same key hash as a script; the entry `utxo` is never read. The errors of another
index and of `ExtractPkScriptAddrs` are built and dropped. -/
def matchPoolFromUtxo (lib : Lib) (_utxo : UtxoEntry) (index : Nat) (chainParams : Params) :
    Except Fault Unit := do
  let pool := if index = 1 then CoinPool1 else if index = 2 then CoinPool2 else []
  let addr ← (lib.newAddressPubKeyHash pool chainParams).mapError fun err =>
    .error ("[pool not match:]" ++ err.text)
  let (scriptClass, addrs, reqSigs) := lib.extractPkScriptAddrs pool chainParams
  if scriptClass ≠ pubKeyHashTy ∨ reqSigs ≠ 1 ∨ addrs.length ≠ 1 ∨ addrs.head? ≠ some addr then
    throw (.error s!"pool not match[class:{scriptClass},req:{reqSigs},addr={addrs}]")
  else pure ()

/-- The input loop of `checkMergeTxInCoinbase`, from input 1 on: each input must be in the view,
unspent, and no older than the block before the entangle height. The error it ends with, if
any; a failed pool match ends it with none. -/
def checkPoolInputs (lib : Lib) (tx : MsgTx) (utxoView : UtxoViewpoint) (chainParams : Params) :
    Nat → List TxIn → Option Fault
  | _, [] => none
  | txInIndex, txIn :: rest =>
    let op := txIn.previousOutPoint
    let txHash := lib.txHash tx
    match utxoView.LookupEntry op with
    | none => some (ruleError .errMissingTxOut (s!"output {op} referenced from " ++
        s!"transaction {txHash}:{txInIndex} does not exist"))
    | some utxo =>
      if utxo.spent then some (ruleError .errSpentTxOut (s!"output {op} referenced from " ++
        s!"transaction {txHash}:{txInIndex} has already been spent"))
      else
        let uxtoHeight := utxo.blockHeight
        let minHeight := chainParams.entangleHeight - 1
        if uxtoHeight < minHeight then
          some (ruleError .errBadTxOutValue (s!"output {op} referenced from " ++
            s!"the wrong height[{uxtoHeight},{minHeight}]"))
        else if txInIndex ≤ 2 then
          match matchPoolFromUtxo lib utxo txInIndex chainParams with
          | .error _ => none
          | .ok () => checkPoolInputs lib tx utxoView chainParams (txInIndex + 1) rest
        else checkPoolInputs lib tx utxoView chainParams (txInIndex + 1) rest

/-- `checkMergeTxInCoinbase`: whether `tx` is a coinbase by the chain's parameters, with the
error of its pool inputs after the entangle height. -/
def checkMergeTxInCoinbase (lib : Lib) (tx : MsgTx) (txHeight : Int32)
    (utxoView : UtxoViewpoint) (chainParams : Params) : Except Fault (Bool × Option Fault) :=
  if chainParams.entangleHeight ≥ txHeight then do
    let isCoinBase ← isCoinBaseInParam tx chainParams
    pure (isCoinBase, none)
  else do
    let isCoinBase ← isCoinBaseInParam tx chainParams
    if isCoinBase then pure (true, checkPoolInputs lib tx utxoView chainParams 1 (tx.txIn.drop 1))
    else pure (false, none)

/-- The input loop of `CheckTransactionInputs`, from the running total `totalSatoshiIn`. -/
def checkTxInputs (lib : Lib) (tx : MsgTx) (txHeight : Int32) (utxoView : UtxoViewpoint)
    (chainParams : Params) : Nat → Int64 → List TxIn → Except Fault Int64
  | _, totalSatoshiIn, [] => pure totalSatoshiIn
  | txInIndex, totalSatoshiIn, txIn :: rest =>
    let op := txIn.previousOutPoint
    let txHash := lib.txHash tx
    match utxoView.LookupEntry op with
    | none => throw (ruleError .errMissingTxOut (s!"output {op} referenced from " ++
        s!"transaction {txHash}:{txInIndex} does not exist"))
    | some utxo =>
      if utxo.spent then throw (ruleError .errSpentTxOut (s!"output {op} referenced from " ++
        s!"transaction {txHash}:{txInIndex} has already been spent"))
      else
        let originHeight := utxo.blockHeight
        let blocksSincePrev := txHeight - originHeight
        let coinbaseMaturity : Int32 := Signed.ofInt chainParams.coinbaseMaturity.toNat
        if utxo.isCoinBase ∧ ¬utxo.isPool ∧ blocksSincePrev < coinbaseMaturity then
          throw (ruleError .errImmatureSpend (s!"tried to spend coinbase transaction output " ++
            s!"{op} from height {originHeight} at height {txHeight} before required " ++
            s!"maturity of {coinbaseMaturity} blocks"))
        else
          let originTxSatoshi := utxo.amount
          let maxSatoshi := lib.maxSatoshi
          if originTxSatoshi < 0 then
            throw (ruleError .errBadTxOutValue
              s!"transaction output has negative value of {originTxSatoshi}")
          else if originTxSatoshi > maxSatoshi then
            throw (ruleError .errBadTxOutValue (s!"transaction output value of " ++
              s!"{originTxSatoshi} is higher than max allowed value of {maxSatoshi}"))
          else
            let lastSatoshiIn := totalSatoshiIn
            let totalSatoshiIn := totalSatoshiIn + originTxSatoshi
            if totalSatoshiIn < lastSatoshiIn ∨ totalSatoshiIn > maxSatoshi then
              throw (ruleError .errBadTxOutValue (s!"total value of all transaction inputs " ++
                s!"is {totalSatoshiIn} which is higher than max allowed value of {maxSatoshi}"))
            else checkTxInputs lib tx txHeight utxoView chainParams (txInIndex + 1)
              totalSatoshiIn rest

/-- The sum of the output values of a transaction, in `int64` arithmetic. -/
def totalOutputs (tx : MsgTx) : Int64 := tx.txOut.foldl (fun total txOut => total + txOut.value) 0

/-- `CheckTransactionInputs`: the fee of `tx`. A coinbase by the chain's parameters has fee
zero and only the error of `checkMergeTxInCoinbase`. -/
def CheckTransactionInputs (lib : Lib) (tx : MsgTx) (txHeight : Int32)
    (utxoView : UtxoViewpoint) (chainParams : Params) : Except Fault Int64 := do
  let (ok, err) ← checkMergeTxInCoinbase lib tx txHeight utxoView chainParams
  if ok then
    match err with
    | some e => throw e
    | none => pure 0
  else do
    let totalSatoshiIn ← checkTxInputs lib tx txHeight utxoView chainParams 0 0 tx.txIn
    let totalSatoshiOut := totalOutputs tx
    let txHash := lib.txHash tx
    if totalSatoshiIn < totalSatoshiOut then
      throw (ruleError .errSpendTooHigh (s!"total value of all transaction inputs for " ++
        s!"transaction {txHash} is {totalSatoshiIn} which is less than the amount spent of " ++
        s!"{totalSatoshiOut}"))
    else pure (totalSatoshiIn - totalSatoshiOut)

/-- The input loop of `CountP2SHSigOps`, from the running total `totalSigOps`. -/
def countP2SHInputs (lib : Lib) (tx : MsgTx) (utxoView : UtxoViewpoint)
    (scriptFlags : ScriptFlags) : Nat → Int64 → List TxIn → Except Fault Int64
  | _, totalSigOps, [] => pure totalSigOps
  | txInIndex, totalSigOps, txIn :: rest =>
    let op := txIn.previousOutPoint
    let txHash := lib.txHash tx
    match utxoView.LookupEntry op with
    | none => throw (ruleError .errMissingTxOut (s!"output {op} referenced from " ++
        s!"transaction {txHash}:{txInIndex} does not exist"))
    | some utxo =>
      if utxo.spent then throw (ruleError .errSpentTxOut (s!"output {op} referenced from " ++
        s!"transaction {txHash}:{txInIndex} has already been spent"))
      else
        let pkScript := utxo.pkScript
        if !lib.isPayToScriptHash pkScript then
          countP2SHInputs lib tx utxoView scriptFlags (txInIndex + 1) totalSigOps rest
        else
          let numSigOps := lib.getPreciseSigOpCount txIn.signatureScript pkScript scriptFlags
          let lastSigOps := totalSigOps
          let totalSigOps := totalSigOps + numSigOps
          if totalSigOps < lastSigOps then
            throw (ruleError .errTooManySigOps (s!"the public key script from output {op} " ++
              "contains too many signature operations - overflow"))
          else countP2SHInputs lib tx utxoView scriptFlags (txInIndex + 1) totalSigOps rest

/-- `CountP2SHSigOps`: the precise count of the inputs that spend pay-to-script-hash outputs;
none for a transaction flagged as the coinbase. -/
def CountP2SHSigOps (lib : Lib) (tx : MsgTx) (isCoinBaseTx : Bool) (utxoView : UtxoViewpoint)
    (scriptFlags : ScriptFlags) : Except Fault Int64 :=
  if isCoinBaseTx then pure 0 else countP2SHInputs lib tx utxoView scriptFlags 0 0 tx.txIn

/-- `GetSigOps`. A failure of `CountP2SHSigOps` becomes a count of zero with no error, so the
error it returns is always `nil` and the model returns the count alone. -/
def GetSigOps (lib : Lib) (tx : MsgTx) (isCoinBaseTx : Bool) (utxoView : UtxoViewpoint)
    (scriptFlags : ScriptFlags) : Int64 :=
  let numSigOps := CountSigOps lib tx scriptFlags
  if ScriptFlag.bip16 ∈ scriptFlags then
    match CountP2SHSigOps lib tx isCoinBaseTx utxoView scriptFlags with
    | .error _ => 0
    | .ok numP2SHSigOps => numSigOps + numP2SHSigOps
  else numSigOps

/-- The input loop of `getFee`, from the running total `totalSatoshiIn`. -/
def feeInputs (lib : Lib) (tx : MsgTx) (utxoView : UtxoViewpoint) :
    Nat → Int64 → List TxIn → Except Fault Int64
  | _, totalSatoshiIn, [] => pure totalSatoshiIn
  | txInIndex, totalSatoshiIn, txIn :: rest =>
    let op := txIn.previousOutPoint
    let txHash := lib.txHash tx
    match utxoView.LookupEntry op with
    | none => throw (ruleError .errMissingTxOut (s!"output {op} referenced from " ++
        s!"transaction {txHash}:{txInIndex} does not exist"))
    | some utxo =>
      let originTxSatoshi := utxo.amount
      if originTxSatoshi < 0 then
        throw (ruleError .errBadTxOutValue
          s!"transaction output has negative value of {originTxSatoshi}")
      else feeInputs lib tx utxoView (txInIndex + 1) (totalSatoshiIn + originTxSatoshi) rest

/-- `getFee`: the fee of `tx`, zero for a coinbase by the chain's parameters. -/
def getFee (lib : Lib) (tx : MsgTx) (utxoView : UtxoViewpoint) (chainParams : Params) :
    Except Fault Int64 := do
  if ← isCoinBaseInParam tx chainParams then pure 0
  else do
    let totalSatoshiIn ← feeInputs lib tx utxoView 0 0 tx.txIn
    let totalSatoshiOut := totalOutputs tx
    let txHash := lib.txHash tx
    if totalSatoshiIn < totalSatoshiOut then
      throw (ruleError .errSpendTooHigh (s!"total value of all transaction inputs for " ++
        s!"transaction {txHash} is {totalSatoshiIn} which is less than the amount spent of " ++
        s!"{totalSatoshiOut}"))
    else pure (totalSatoshiIn - totalSatoshiOut)

/-- `getEtsInfoInBlock`: the fee per kilobyte of every transaction of the block. -/
def getEtsInfoInBlock (lib : Lib) (block : Block) (utxoView : UtxoViewpoint)
    (chainParams : Params) : Except Fault (List EtsInfo) :=
  block.transactions.mapM fun tx => do
    let fee ← getFee lib tx utxoView chainParams
    pure ⟨fee * 1000 / Signed.ofInt (lib.serializeSize tx), tx⟩

/-- `checkTxSequence`: after the entangle height, the fee rates must pass
`cross.VerifyTxsSequence`. -/
def checkTxSequence (lib : Lib) (block : Block) (utxoView : UtxoViewpoint)
    (chainParams : Params) : Except Fault Unit :=
  let height := block.height
  if chainParams.entangleHeight ≥ height then pure ()
  else do
    let infos ← getEtsInfoInBlock lib block utxoView chainParams
    lib.verifyTxsSequence infos

/-- `SequenceLockActive`: both relative locks lie before the block. -/
def SequenceLockActive (sequenceLock : SequenceLock) (blockHeight : Int32)
    (medianTimePast : Time) : Bool :=
  !(decide (sequenceLock.seconds.val ≥ medianTimePast.unix) ||
    decide (sequenceLock.blockHeight ≥ blockHeight))

/-! ### The coinbase -/

section Coinbase

variable {lib : Lib} {tx : MsgTx} {utxoView : UtxoViewpoint} {scriptFlags : ScriptFlags}

end Coinbase

/-! ### The fee of a transaction that is not a coinbase -/

/-- The exact sum of the amounts of the entries the inputs spend, a missing entry counting 0. -/
def inputValueSum (view : UtxoViewpoint) (txIns : List TxIn) : Int :=
  (txIns.map fun txIn => ((view.LookupEntry txIn.previousOutPoint).map (·.amount.val)).getD 0).sum

/-- What `CheckTransactionInputs` requires of an entry spent at `txHeight`: unspent; if it is a
coinbase output outside the pools, at least `CoinbaseMaturity` blocks old in `int32` arithmetic,
which is the exact age when both heights are non-negative; and an amount in
`[0, MaxSatoshi]`. -/
structure SpendableInput (lib : Lib) (chainParams : Params) (txHeight : Int32) (utxo : UtxoEntry) :
    Prop where
  unspent : utxo.spent = false
  mature : utxo.isCoinBase ∧ ¬utxo.isPool →
    (Signed.ofInt chainParams.coinbaseMaturity.toNat : Int32) ≤ txHeight - utxo.blockHeight
  mature_exact : utxo.isCoinBase ∧ ¬utxo.isPool → 0 ≤ txHeight.val → 0 ≤ utxo.blockHeight.val →
    (chainParams.coinbaseMaturity.toNat : Int) ≤ txHeight.val - utxo.blockHeight.val
  amount_nonneg : 0 ≤ utxo.amount.val
  amount_le : utxo.amount.val ≤ lib.maxSatoshi.val

theorem checkTxInputs_ok {lib : Lib} {tx : MsgTx} {txHeight : Int32} {view : UtxoViewpoint}
    {chainParams : Params} {i : Nat} {total total' : Int64} {ins : List TxIn}
    (h0 : 0 ≤ total.val) (hm : total.val ≤ lib.maxSatoshi.val)
    (h : checkTxInputs lib tx txHeight view chainParams i total ins = .ok total') :
    (∀ txIn ∈ ins, ∃ utxo, view.LookupEntry txIn.previousOutPoint = some utxo ∧
      SpendableInput lib chainParams txHeight utxo) ∧
      total'.val = total.val + inputValueSum view ins ∧ total'.val ≤ lib.maxSatoshi.val := by
  induction ins generalizing i total with
  | nil =>
    cases h
    exact ⟨fun _ h => absurd h (List.not_mem_nil _), by simp [inputValueSum], hm⟩
  | cons txIn rest ih =>
    simp only [checkTxInputs] at h
    split at h
    · cases h
    rename_i utxo hlook
    simp only [ite_throw_eq_ok, gt_iff_lt, Signed.lt_iff, not_lt, not_or, not_and,
      Signed.val_zero, Bool.not_eq_true] at h
    obtain ⟨hspent, hmat, hneg, hmax, ⟨hwrap, hover⟩, hrest⟩ := h
    have hsum : (total + utxo.amount).val = total.val + utxo.amount.val := by
      rcases Signed.val_add_of_nonneg h0 hneg with hex | ⟨hlt, -⟩
      · exact hex
      · omega
    obtain ⟨hall, heq, hle⟩ := ih (by omega) (by omega) hrest
    have hcap : (Signed.ofInt chainParams.coinbaseMaturity.toNat : Int32).val =
        chainParams.coinbaseMaturity.toNat := by
      have : chainParams.coinbaseMaturity.toNat < 65536 :=
        chainParams.coinbaseMaturity.toNat_lt_size
      exact wrap_of_fits (by decide) (by omega) (by omega)
    refine ⟨?_, ?_, hle⟩
    · refine List.forall_mem_cons.mpr ⟨⟨utxo, hlook, hspent, fun hc => ?_, fun hc ht ho => ?_,
        hneg, hmax⟩, hall⟩
      · exact hmat hc.1 (by simpa using hc.2)
      · have := hmat hc.1 (by simpa using hc.2)
        rwa [hcap, Signed.val_sub_of_nonneg (by norm_num) ht ho] at this
    · simp only [inputValueSum, List.map_cons, List.sum_cons, hlook, Option.map_some',
        Option.getD_some] at heq ⊢
      rw [heq, hsum]
      omega

theorem foldl_value_val : ∀ (outs : List TxOut) (t : Int64), 0 ≤ t.val →
    (∀ o ∈ outs, 0 ≤ o.value.val) → t.val + outputValueSum outs < 2 ^ 63 →
    (outs.foldl (fun total txOut => total + txOut.value) t).val = t.val + outputValueSum outs
  | [], _, _, _, _ => by simp
  | o :: rest, t, h0, hall, hlt => by
    simp only [List.forall_mem_cons, outputValueSum_cons] at hall hlt
    have hrest := outputValueSum_nonneg hall.2
    have hsum : (t + o.value).val = t.val + o.value.val :=
      Signed.val_add_of_fits _ _ (by omega) (by omega)
    rw [List.foldl_cons, foldl_value_val rest _ (by omega) hall.2 (by omega), hsum, add_assoc,
      outputValueSum_cons]

/-- A transaction that `CheckTransactionSanity` accepts and that is not a coinbase by the
chain's parameters has a fee only if every input spends a `SpendableInput`. The loop's input
total is then the exact sum of the amounts, the output total the exact sum of the values, and
the fee their exact difference, in `[0, MaxSatoshi]`: no `int64` sum wraps. -/
theorem CheckTransactionInputs_fee {lib : Lib} {tx : MsgTx} {txHeight : Int32}
    {view : UtxoViewpoint} {chainParams : Params} {ma : Bool} {flags : ScriptFlags} {fee : Int64}
    (hsan : CheckTransactionSanity lib tx ma flags = .ok ())
    (hcb : isCoinBaseInParam tx chainParams = .ok false)
    (h : CheckTransactionInputs lib tx txHeight view chainParams = .ok fee) :
    (∀ txIn ∈ tx.txIn, ∃ utxo, view.LookupEntry txIn.previousOutPoint = some utxo ∧
      SpendableInput lib chainParams txHeight utxo) ∧
    (∃ totalIn : Int64, checkTxInputs lib tx txHeight view chainParams 0 0 tx.txIn = .ok totalIn ∧
      totalIn.val = inputValueSum view tx.txIn) ∧
    (totalOutputs tx).val = outputValueSum tx.txOut ∧
    fee.val = inputValueSum view tx.txIn - outputValueSum tx.txOut ∧
    0 ≤ fee.val ∧ fee.val ≤ lib.maxSatoshi.val := by
  obtain ⟨-, hout, hrange, hsum⟩ := CheckTransactionSanity_ok hsan
  obtain ⟨o, ho⟩ := List.exists_mem_of_ne_nil _ hout
  have hmax : 0 ≤ lib.maxSatoshi.val := (hrange o ho).1.trans (hrange o ho).2
  have hout0 := outputValueSum_nonneg fun o ho => (hrange o ho).1
  have hout_val : (totalOutputs tx).val = outputValueSum tx.txOut := by
    have := lib.maxSatoshi.val_hi
    simpa [Signed.val_zero] using foldl_value_val tx.txOut 0 (le_of_eq Signed.val_zero.symm)
      (fun o ho => (hrange o ho).1) (by rw [Signed.val_zero]; omega)
  have hmerge : checkMergeTxInCoinbase lib tx txHeight view chainParams = .ok (false, none) := by
    unfold checkMergeTxInCoinbase
    split_ifs <;> simp [hcb, bind, Except.bind, pure, Except.pure]
  simp only [CheckTransactionInputs, hmerge, bind_ok, Bool.false_eq_true, if_false] at h
  obtain ⟨totalIn, hloop, h⟩ := bind_eq_ok.mp h
  rw [ite_throw_eq_ok, Signed.lt_iff, not_lt] at h
  obtain ⟨hge, h⟩ := h
  cases h
  obtain ⟨hall, heq, hle⟩ :=
    checkTxInputs_ok (le_of_eq Signed.val_zero.symm) (by rw [Signed.val_zero]; exact hmax) hloop
  rw [Signed.val_zero, zero_add] at heq
  have hfee : (totalIn - totalOutputs tx).val = totalIn.val - (totalOutputs tx).val :=
    Signed.val_sub_of_nonneg (by norm_num) (by omega) (by omega)
  exact ⟨hall, ⟨totalIn, hloop, heq⟩, hout_val, by omega, by omega, by omega⟩

def spendSeven : MsgTx := ⟨[⟨⟨⟨7⟩, 0⟩, [], 0⟩], [⟨500, []⟩], 0⟩

/-- A view holding output 0 of transaction `7`: a coinbase output of 1000, outside the pools,
created at height 1. -/
def coinbaseSevenView : UtxoViewpoint :=
  UtxoViewpoint.empty.insert ⟨⟨7⟩, 0⟩ ⟨1000, [], 1, true, false, false⟩

theorem CheckTransactionInputs_fee_at :
    CheckTransactionInputs Lib.sample spendSeven 200 coinbaseSevenView Params.sample = .ok 500 ∧
      (500 : Int64).val = inputValueSum coinbaseSevenView spendSeven.txIn -
        outputValueSum spendSeven.txOut :=
  have h : CheckTransactionInputs Lib.sample spendSeven 200 coinbaseSevenView Params.sample =
      .ok 500 := rfl
  ⟨h, (CheckTransactionInputs_fee
    (show CheckTransactionSanity Lib.sample spendSeven false [] = .ok () from rfl) rfl h).2.2.2.1⟩

/-- At the height `-2^31` the age `txHeight - originHeight` of a coinbase output from height 1
wraps to `2^31 - 1`, and the spend is accepted although the exact age is negative. -/
theorem CheckTransactionInputs_wrapped_age :
    CheckTransactionSanity Lib.sample spendSeven false [] = .ok () ∧
      isCoinBaseInParam spendSeven Params.sample = .ok false ∧
      coinbaseSevenView.LookupEntry ⟨⟨7⟩, 0⟩ = some ⟨1000, [], 1, true, false, false⟩ ∧
      (Signed.ofInt (-2147483648) : Int32).val - 1 < Params.sample.coinbaseMaturity.toNat ∧
      CheckTransactionInputs Lib.sample spendSeven (Signed.ofInt (-2147483648)) coinbaseSevenView
        Params.sample = .ok 500 :=
  ⟨rfl, rfl, rfl, by decide, rfl⟩

/-! ### The fee `getFee` computes

`getFee`, which `checkTxSequence` reads through `getEtsInfoInBlock`, repeats the fee computation
of `CheckTransactionInputs` with fewer checks: no spent, maturity, range or overflow test on the
inputs. Where `CheckTransactionInputs` succeeds, the two agree. -/

theorem feeInputs_of_checkTxInputs {lib : Lib} {tx : MsgTx} {txHeight : Int32}
    {view : UtxoViewpoint} {chainParams : Params} :
    ∀ {i : Nat} {total total' : Int64} {ins : List TxIn},
      checkTxInputs lib tx txHeight view chainParams i total ins = .ok total' →
        feeInputs lib tx view i total ins = .ok total'
  | _, _, _, [], h => h
  | i, total, total', txIn :: rest, h => by
    simp only [checkTxInputs] at h
    simp only [feeInputs]
    split at h
    · cases h
    simp only [ite_throw_eq_ok] at h
    obtain ⟨-, -, hneg, -, -, hrest⟩ := h
    rw [if_neg hneg]
    exact feeInputs_of_checkTxInputs hrest

theorem getFee_of_CheckTransactionInputs {lib : Lib} {tx : MsgTx} {txHeight : Int32}
    {view : UtxoViewpoint} {chainParams : Params} {fee : Int64}
    (h : CheckTransactionInputs lib tx txHeight view chainParams = .ok fee) :
    getFee lib tx view chainParams = .ok fee := by
  unfold CheckTransactionInputs checkMergeTxInCoinbase at h
  unfold getFee
  cases hc : isCoinBaseInParam tx chainParams with
  | error e => split_ifs at h <;> simp only [hc, bind_error, reduceCtorEq] at h
  | ok c =>
    cases c
    · have hmerge : (if chainParams.entangleHeight ≥ txHeight then
          (pure (false, none) : Except Fault (Bool × Option Fault))
        else pure (false, none)) = pure (false, none) := ite_self _
      simp only [hc, bind_ok, Bool.false_eq_true, if_false, pure_bind, hmerge] at h ⊢
      obtain ⟨totalIn, hloop, h⟩ := bind_eq_ok.mp h
      rw [feeInputs_of_checkTxInputs hloop, bind_ok]
      exact h
    · simp only [bind_ok, if_true]
      split_ifs at h <;> simp only [hc, bind_ok, if_true, pure_bind] at h
      · exact h
      · split at h
        · cases h
        · exact h

end Classzz
