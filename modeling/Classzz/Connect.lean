import Classzz.Inputs
import Classzz.Subsidy

/-! `checkConnectBlock`, cut at its call of `connectTransactions` into the checks before
(`checkConnectBlockInputs`) and after (`checkConnectedBlock`); an error of `connectTransactions`
is returned as `nil`. -/

namespace Classzz

/-- The script flags `checkConnectBlock` sets for every block. -/
def blockScriptFlags : ScriptFlags :=
  [.bip16, .verifyDERSignatures, .verifyCheckLockTimeVerify, .verifyStrictEncoding,
    .verifyBip143SigHash, .verifyLowS, .verifyNullFail, .verifySigPushOnly, .verifyCleanStack,
    .verifyCheckDataSig, .verifySchnorr, .verifyAllowSegwitRecovery]

/-- The sigop loop of `checkConnectBlock`, from transaction `i` and the running total; the
first transaction is counted as the coinbase. -/
def checkBlockSigOps (lib : Lib) (view : UtxoViewpoint) (scriptFlags : ScriptFlags)
    (maxSigOps : Int64) : Nat → Int64 → List MsgTx → Except Fault Unit
  | _, _, [] => pure ()
  | i, totalSigOpCost, tx :: rest =>
    let sigOpCost := GetSigOps lib tx (i = 0) view scriptFlags
    let lastSigOpCost := totalSigOpCost
    let totalSigOpCost := totalSigOpCost + sigOpCost
    if totalSigOpCost < lastSigOpCost ∨ totalSigOpCost > maxSigOps then
      throw (ruleError .errTooManySigOps (s!"block contains too many signature operations - " ++
        s!"got {totalSigOpCost}, max {maxSigOps}"))
    else checkBlockSigOps lib view scriptFlags maxSigOps (i + 1) totalSigOpCost rest

/-- The fee loop of `checkConnectBlock`: the total fees of the block. -/
def checkBlockFees (lib : Lib) (txHeight : Int32) (view : UtxoViewpoint) (chainParams : Params) :
    Int64 → List MsgTx → Except Fault Int64
  | totalFees, [] => pure totalFees
  | totalFees, tx :: rest => do
    let txFee ← CheckTransactionInputs lib tx txHeight view chainParams
    let lastTotalFees := totalFees
    let totalFees := totalFees + txFee
    if totalFees < lastTotalFees then
      throw (ruleError .errBadFees "total fees for block overflows accumulator")
    else checkBlockFees lib txHeight view chainParams totalFees rest

/-- The sequence-lock loop of `checkConnectBlock`. -/
def checkSequenceLocks (b : BlockChain) (node : BlockNode) (view : UtxoViewpoint)
    (medianTime : Time) : List MsgTx → Except Fault Unit
  | [] => pure ()
  | tx :: rest => do
    let sequenceLock ← b.calcSequenceLock node tx view
    if !SequenceLockActive sequenceLock node.height medianTime then
      throw (ruleError .errUnfinalizedTx
        "block contains transaction whose input sequence locks are not met")
    else checkSequenceLocks b node view medianTime rest

/-- `checkConnectBlock` up to `connectTransactions`: the view with the block's inputs loaded,
and the block's total fees. -/
def checkConnectBlockInputs (b : BlockChain) (node : BlockNode) (block : Block)
    (view : UtxoViewpoint) : Except Fault (UtxoViewpoint × Int64) :=
  if node.hash = b.chainParams.genesisHash then
    throw (ruleError .errMissingTxOut "the coinbase for the genesis block is not spendable")
  else do
    let view ← addInputUtxos b.fetchUtxo view block
    let transactions := block.transactions
    let nBlockBytes := b.lib.blockSerializeSize block.msgBlock
    let maxSigOps := MaxBlockSigOps (UInt32.ofNat nBlockBytes)
    checkBlockSigOps b.lib view blockScriptFlags maxSigOps 0 0 transactions
    let totalFees ← checkBlockFees b.lib node.height view b.chainParams 0 transactions
    checkTxSequence b.lib block view b.chainParams
    pure (view, totalFees)

/-- `checkConnectBlock` after `connectTransactions`, on the connected view: the coinbase's first
output against the subsidy and fees, the pools against the previous block, the sequence locks
when CSV is active, and the scripts past the latest checkpoint. -/
def checkConnectedBlock (b : BlockChain) (node : BlockNode) (block : Block)
    (view : UtxoViewpoint) (totalFees : Int64) : Except Fault Unit := do
  let coinbaseTx ← index block.transactions 0
  -- the loop over the outputs breaks after the first
  let totalSatoshiOut : Int64 := match coinbaseTx.txOut with
    | [] => 0
    | txOut :: _ => txOut.value
  let amountSubsidy := CalcBlockSubsidy b.lib node.height b.chainParams
  let expectedSatoshiOut := amountSubsidy + totalFees
  if totalSatoshiOut > expectedSatoshiOut then
    throw (ruleError .errBadCoinbaseValue (s!"coinbase transaction for block pays " ++
      s!"{totalSatoshiOut} which is more than expected value of {expectedSatoshiOut}"))
  else do
    let preHash := block.msgBlock.header.prevBlock
    let preHeight := node.height - 1
    if preHeight > 0 then
      match b.blockByHashAndHeight preHash preHeight with
      | .error err =>
        let height := node.height
        let errText := err.text
        throw (ruleError .errPrevBlockNotBest
          s!"cann't get preblock <nil>,current height: {height},err:{errText}")
      | .ok preblock =>
        checkBlockSubsidy b.lib block preblock node.height view amountSubsidy b.chainParams
    let runScripts := match b.latestCheckpoint with
      | some checkpointHeight => decide (checkpointHeight < node.height)
      | none => true
    let csvState ← b.csvState node.parent
    let scriptFlags ← if csvState = .thresholdActive then do
        -- `node.parent.CalcPastMedianTime()` dereferences the parent
        let parent ← match node.parent with
          | some parent => pure parent
          | none => throw .panic
        let medianTime := b.CalcPastMedianTime parent
        checkSequenceLocks b node view medianTime block.transactions
        pure (blockScriptFlags ++ [.verifyCheckSequenceVerify])
      else pure blockScriptFlags
    if runScripts then b.checkBlockScripts block view scriptFlags else pure ()

/-- `checkConnectBlock`: the view as the call leaves it. An error of `connectTransactions` is
returned as `nil`. -/
def checkConnectBlock (b : BlockChain) (node : BlockNode) (block : Block)
    (view : UtxoViewpoint) : Except Fault UtxoViewpoint := do
  let (view, totalFees) ← checkConnectBlockInputs b node block view
  match connectTransactions b.lib view block with
  | .error _ => pure view
  | .ok view => do
    checkConnectedBlock b node block view totalFees
    pure view

/-! ### The error of `connectTransactions` is dropped -/

section Connect

variable {b : BlockChain} {node : BlockNode} {block : Block} {view view₁ v : UtxoViewpoint}
  {totalFees : Int64}

/-- `checkConnectBlock` accepts a block exactly when the checks before `connectTransactions`
pass and then either `connectTransactions` fails, leaving the view, or it succeeds and every
check after it passes. -/
theorem checkConnectBlock_eq_ok_iff :
    checkConnectBlock b node block view = .ok v ↔ ∃ view₁ totalFees,
      checkConnectBlockInputs b node block view = .ok (view₁, totalFees) ∧
      ((∃ e, connectTransactions b.lib view₁ block = .error e) ∧ v = view₁ ∨
        connectTransactions b.lib view₁ block = .ok v ∧
          checkConnectedBlock b node block v totalFees = .ok ()) := by
  simp only [checkConnectBlock, bind_eq_ok, Prod.exists]
  refine exists_congr fun view₁ => exists_congr fun totalFees => and_congr_right fun _ => ?_
  cases connectTransactions b.lib view₁ block with
  | error e => simp [pure, Except.pure, eq_comm]
  | ok v' =>
    simp only [bind_eq_ok, pure, Except.pure, Except.ok.injEq, and_comm, reduceCtorEq,
      exists_false, false_and, false_or]
    exact ⟨fun ⟨(), he, h⟩ => ⟨he, he ▸ h⟩, fun ⟨he, h⟩ => ⟨(), he, he ▸ h⟩⟩

/-- A block whose transactions pass their input checks one by one against the loaded view, but
that spends some outpoint twice, is accepted, with the view left as loaded. -/
theorem checkConnectBlock_accepts_double_spend
    (h : checkConnectBlockInputs b node block view = .ok (view₁, totalFees))
    (hdup : ¬ (blockSpends block.transactions).Nodup) :
    checkConnectBlock b node block view = .ok view₁ :=
  checkConnectBlock_eq_ok_iff.mpr ⟨view₁, totalFees, h, .inl ⟨spendTxIns_error_of_dup hdup, rfl⟩⟩

/-- After the entangle height, a block whose coinbase passes the value test panics in the checks
after `connectTransactions` when the coinbase of the previous block has fewer than three outputs:
`checkBlockSubsidy` reads the pools there. -/
theorem checkConnectedBlock_eq_panic {pre : Block} {coinbaseTx preCoinbase : MsgTx}
    {rest preRest : List MsgTx} (hb : block.transactions = coinbaseTx :: rest)
    (hval : ¬(coinbaseTx.txOut.headD ⟨0, []⟩).value >
      CalcBlockSubsidy b.lib node.height b.chainParams + totalFees)
    (hh : b.chainParams.entangleHeight < node.height) (hp : node.height - 1 > 0)
    (hpre : b.blockByHashAndHeight block.msgBlock.header.prevBlock (node.height - 1) = .ok pre)
    (hpc : pre.transactions = preCoinbase :: preRest) (hout : preCoinbase.txOut.length < 3) :
    checkConnectedBlock b node block v totalFees = .error .panic := by
  cases hc : coinbaseTx.txOut <;> simp only [hc, List.headD_nil, List.headD_cons] at hval <;>
    simp only [checkConnectedBlock, hb, index, List.getElem?_cons_zero, bind_ok, hc, if_neg hval,
      if_pos hp, hpre, checkBlockSubsidy_eq_panic hh hpc hout] <;> rfl

theorem checkConnectBlock_eq_panic {pre : Block} {coinbaseTx preCoinbase : MsgTx}
    {rest preRest : List MsgTx}
    (hin : checkConnectBlockInputs b node block view = .ok (view₁, totalFees))
    (hconn : connectTransactions b.lib view₁ block = .ok v)
    (hb : block.transactions = coinbaseTx :: rest)
    (hval : ¬(coinbaseTx.txOut.headD ⟨0, []⟩).value >
      CalcBlockSubsidy b.lib node.height b.chainParams + totalFees)
    (hh : b.chainParams.entangleHeight < node.height) (hp : node.height - 1 > 0)
    (hpre : b.blockByHashAndHeight block.msgBlock.header.prevBlock (node.height - 1) = .ok pre)
    (hpc : pre.transactions = preCoinbase :: preRest) (hout : preCoinbase.txOut.length < 3) :
    checkConnectBlock b node block view = .error .panic := by
  simp only [checkConnectBlock, hin, hconn, bind_ok,
    checkConnectedBlock_eq_panic hb hval hh hp hpre hpc hout]
  rfl

end Connect

/-! ### The sigop limit

The sigop loop adds the counts of `GetSigOps` to an int64 total and rejects a total that falls
below the one before it (an overflow, or a negative count) or exceeds `MaxBlockSigOps`. Since
the limit is below `2^63`, the loop accepts exactly when the exact sum is within it. -/

/-- The counts the sigop loop adds from position `i`: `GetSigOps` of each transaction, the first
of the block counted as the coinbase. -/
def blockSigOpCosts (lib : Lib) (view : UtxoViewpoint) (scriptFlags : ScriptFlags) :
    Nat → List MsgTx → List Int
  | _, [] => []
  | i, tx :: rest =>
    (GetSigOps lib tx (i = 0) view scriptFlags).val ::
      blockSigOpCosts lib view scriptFlags (i + 1) rest

theorem checkBlockSigOps_from_eq_ok_iff {lib : Lib} {view : UtxoViewpoint}
    {scriptFlags : ScriptFlags} {m : Int64} (txs : List MsgTx) :
    ∀ {i : Nat} {t : Int64}, 0 ≤ t.val → t.val ≤ m.val →
      (checkBlockSigOps lib view scriptFlags m i t txs = .ok () ↔
        (∀ c ∈ blockSigOpCosts lib view scriptFlags i txs, 0 ≤ c) ∧
          t.val + (blockSigOpCosts lib view scriptFlags i txs).sum ≤ m.val) := by
  induction txs with
  | nil => intro i t _ hm; simp [checkBlockSigOps, blockSigOpCosts, hm, pure, Except.pure]
  | cons tx rest ih =>
    intro i t h0 hm
    have hmax := m.val_hi
    have hlo := (GetSigOps lib tx (i = 0) view scriptFlags).val_lo
    have hrest : (∀ x ∈ blockSigOpCosts lib view scriptFlags (i + 1) rest, 0 ≤ x) →
        0 ≤ (blockSigOpCosts lib view scriptFlags (i + 1) rest).sum := List.sum_nonneg
    simp only [checkBlockSigOps, blockSigOpCosts, ite_throw_eq_ok, gt_iff_lt, Signed.lt_iff,
      not_or, not_lt, List.forall_mem_cons, List.sum_cons]
    generalize GetSigOps lib tx (i = 0) view scriptFlags = c at hlo ⊢
    by_cases hc0 : 0 ≤ c.val
    · rcases Signed.val_add_of_nonneg h0 hc0 with hex | ⟨hneg, hbig⟩
      · by_cases ht : t.val + c.val ≤ m.val
        · rw [ih (by omega) (by omega), hex]
          constructor
          · rintro ⟨-, hall, hsum⟩; exact ⟨⟨hc0, hall⟩, by omega⟩
          · rintro ⟨⟨-, hall⟩, hsum⟩; exact ⟨⟨by omega, by omega⟩, hall, by omega⟩
        · refine iff_of_false (by omega) fun ⟨⟨_, hall⟩, hsum⟩ => ?_
          have := hrest hall
          omega
      · refine iff_of_false (by omega) fun ⟨⟨_, hall⟩, hsum⟩ => ?_
        have := hrest hall
        omega
    · -- a negative count lowers the total, which the overflow test rejects
      have hex : (t + c).val = t.val + c.val := Signed.val_add_of_fits t c (by omega) (by omega)
      exact iff_of_false (by omega) fun h => hc0 h.1.1

/-- The sigop loop of `checkConnectBlock` accepts a block exactly when no transaction's count is
negative and their exact sum is at most `MaxBlockSigOps` of the block's size: the int64 total
never lets a larger sum through. -/
theorem checkBlockSigOps_eq_ok_iff (lib : Lib) (view : UtxoViewpoint) (scriptFlags : ScriptFlags)
    (nBlockBytes : UInt32) (txs : List MsgTx) :
    checkBlockSigOps lib view scriptFlags (MaxBlockSigOps nBlockBytes) 0 0 txs = .ok () ↔
      (∀ c ∈ blockSigOpCosts lib view scriptFlags 0 txs, 0 ≤ c) ∧
        (blockSigOpCosts lib view scriptFlags 0 txs).sum ≤ (MaxBlockSigOps nBlockBytes).val := by
  have hm := (MaxBlockSigOps_val_mem nBlockBytes).1
  simpa [Signed.val_zero] using checkBlockSigOps_from_eq_ok_iff txs
    (le_of_eq Signed.val_zero.symm) (by rw [Signed.val_zero]; omega)

/-! ### Sample blocks -/

def sampleOutPoint (n : Nat) : OutPoint := ⟨⟨n⟩, 0⟩

def sampleEntry (amount : Int64) (pkScript : List UInt8) (height : Int32) : UtxoEntry :=
  ⟨amount, pkScript, height, false, false, false⟩

/-- A coinbase at `height`, from 1 to 16, which its script gives as a small-integer opcode,
spending the null outpoint and then `extra`, with outputs of the given values. Its lock time,
which the sample hash reads, is its height. -/
def sampleCoinbase (height : Nat) (extra : List OutPoint) (values : List Int64) : MsgTx :=
  ⟨⟨⟨zeroHash, maxUint32⟩, [UInt8.ofNat (OP_1 - 1 + height)], 0⟩ ::
      extra.map (fun op => ⟨op, [], 0⟩),
    values.map (fun value => ⟨value, []⟩), UInt32.ofNat height⟩

def sampleSpend (op : OutPoint) (value : Int64) (lockTime : UInt32) : MsgTx :=
  ⟨[⟨op, [], 0⟩], [⟨value, []⟩], lockTime⟩

def sampleBlock (height : Nat) (txs : List MsgTx) : Block :=
  ⟨⟨⟨⟨height - 1⟩, zeroHash, Time.ofUnix 1500000000, 0x1d00ffff, 0⟩, txs⟩, Signed.ofInt height⟩

def sampleNode (height : Nat) : BlockNode :=
  ⟨⟨1000 + height⟩, Signed.ofInt height, 0x1d00ffff, 0, 0, none⟩

/-- A block below the entangle height whose two transactions both spend `sampleOutPoint 100`. -/
def doubleSpendBlock : Block :=
  sampleBlock 9 [sampleCoinbase 9 [] [0], sampleSpend (sampleOutPoint 100) 500 1,
    sampleSpend (sampleOutPoint 100) 400 2]

def doubleSpendView : UtxoViewpoint :=
  UtxoViewpoint.empty.insert (sampleOutPoint 100) (sampleEntry 1000 [] 1)

theorem checkConnectBlock_doubleSpendBlock :
    checkConnectBlockInputs BlockChain.sample (sampleNode 9) doubleSpendBlock doubleSpendView =
        .ok (doubleSpendView, 1100) ∧
      ¬ (blockSpends doubleSpendBlock.transactions).Nodup ∧
      checkConnectBlock BlockChain.sample (sampleNode 9) doubleSpendBlock doubleSpendView =
        .ok doubleSpendView :=
  have h : checkConnectBlockInputs BlockChain.sample (sampleNode 9) doubleSpendBlock
      doubleSpendView = .ok (doubleSpendView, 1100) := rfl
  have hdup : ¬ (blockSpends doubleSpendBlock.transactions).Nodup := by decide
  ⟨h, hdup, checkConnectBlock_accepts_double_spend h hdup⟩

/-! ### Blocks after the entangle height

The sample chain has entangle height 10 and subsidy `10^11` at height 11, of which pool 1 gets
`19 * 10^9` and pool 2 `10^9`. -/

/-- Sample collaborators in which the script `[0xA9]` pays to a script hash whose redeem
script counts 30000 sigops. -/
def Lib.p2sh : Lib :=
  { Lib.sample with
    isPayToScriptHash := fun s => s = [0xA9]
    getPreciseSigOpCount := fun _ _ _ => 30000
    getPreciseSigOpCount_nonneg := fun _ _ _ => (by decide : (0 : Int) ≤ (30000 : Int64).val) }

def BlockChain.entangled (pre : Block) : BlockChain :=
  { BlockChain.sample with lib := Lib.p2sh, blockByHashAndHeight := fun _ _ => .ok pre }

/-- A view holding `n:0` for each `n`, of value zero, paying to `[0xA9]`, created at height 9,
the lowest that the pool inputs of a coinbase may spend. -/
def poolInputView (ns : List Nat) : UtxoViewpoint :=
  ns.foldl (fun v n => v.insert (sampleOutPoint n) (sampleEntry 0 [0xA9] 9)) .empty

def entangleCoinbase (values : List Int64) : MsgTx :=
  sampleCoinbase 10 [sampleOutPoint 200, sampleOutPoint 201] values

/-- The coinbase after it: it spends `300:0` and `301:0` and pays the pools of
`entangleCoinbase [0, 10^11, 0]` their parts of the subsidy. -/
def nextCoinbase : MsgTx :=
  sampleCoinbase 11 [sampleOutPoint 300, sampleOutPoint 301] [0, 119000000000, 1000000000]

def entangleBlock (values : List Int64) : Block := sampleBlock 10 [entangleCoinbase values]

/-- The exact sum of the values of the outputs of the transactions. -/
def totalOutputValue (txs : List MsgTx) : Int :=
  ((txs.flatMap (·.txOut)).map (·.value.val)).sum

/-- The exact sum of the values in `view` of the distinct outpoints the transactions spend. -/
def spentValue (view : UtxoViewpoint) (txs : List MsgTx) : Int :=
  (((blockInputs txs).dedup.filterMap view.LookupEntry).map (·.amount.val)).sum

/-- The block after the entangle height pays out `10^11 + 2 * 10^10` while the subsidy is
`10^11` and its inputs spend nothing: the pool check credits the coinbase with the previous
pools, and gives the same verdict to a coinbase that spends only the null outpoint. -/
theorem checkConnectBlock_creates_value :
    (checkConnectBlock (.entangled (entangleBlock [0, 100000000000, 0]))
        (sampleNode 11) (sampleBlock 11 [nextCoinbase]) (poolInputView [300, 301])).isOk ∧
      (CalcBlockSubsidy Lib.p2sh (Signed.ofInt 11) Params.sample).val +
          spentValue (poolInputView [300, 301]) [nextCoinbase] <
        totalOutputValue [nextCoinbase] ∧
      ∀ view, checkBlockSubsidy Lib.p2sh (sampleBlock 11 [nextCoinbase])
          (entangleBlock [0, 100000000000, 0]) (Signed.ofInt 11) view
          (CalcBlockSubsidy Lib.p2sh (Signed.ofInt 11) Params.sample) Params.sample =
        checkBlockSubsidy Lib.p2sh (sampleBlock 11 [{ nextCoinbase with txIn := nextCoinbase.txIn.take 1 }])
          (entangleBlock [0, 100000000000, 0]) (Signed.ofInt 11) view
          (CalcBlockSubsidy Lib.p2sh (Signed.ofInt 11) Params.sample) Params.sample :=
  ⟨rfl, by decide, fun _ => checkBlockSubsidy_coinbase_txIn _ rfl⟩

/-- The coinbase after `entangleCoinbase [0, 10^11, 0]` with pool inputs that do spend its pool
outputs. -/
def linkedCoinbase : MsgTx :=
  { nextCoinbase with
    txIn := nextCoinbase.txIn.take 1 ++
      [⟨⟨Lib.p2sh.txHash (entangleCoinbase [0, 100000000000, 0]), 1⟩, [], 0⟩,
        ⟨⟨Lib.p2sh.txHash (entangleCoinbase [0, 100000000000, 0]), 2⟩, [], 0⟩] }

/-- Both blocks are accepted, and the pool inputs of the second do not spend the pool outputs
of the first; the pool check gives the same verdict as to a coinbase whose inputs do. -/
theorem checkConnectBlock_unlinked_pools :
    (checkConnectBlock (.entangled (entangleBlock [0, 100000000000, 0])) (sampleNode 10)
        (entangleBlock [0, 100000000000, 0]) (poolInputView [200, 201])).isOk ∧
      (checkConnectBlock (.entangled (entangleBlock [0, 100000000000, 0])) (sampleNode 11)
        (sampleBlock 11 [nextCoinbase]) (poolInputView [300, 301])).isOk ∧
      (nextCoinbase.txIn.drop 1).map (·.previousOutPoint) ≠
        [⟨Lib.p2sh.txHash (entangleCoinbase [0, 100000000000, 0]), 1⟩,
          ⟨Lib.p2sh.txHash (entangleCoinbase [0, 100000000000, 0]), 2⟩] ∧
      ∀ view, checkBlockSubsidy Lib.p2sh (sampleBlock 11 [nextCoinbase])
          (entangleBlock [0, 100000000000, 0]) (Signed.ofInt 11) view
          (CalcBlockSubsidy Lib.p2sh (Signed.ofInt 11) Params.sample) Params.sample =
        checkBlockSubsidy Lib.p2sh (sampleBlock 11 [linkedCoinbase])
          (entangleBlock [0, 100000000000, 0]) (Signed.ofInt 11) view
          (CalcBlockSubsidy Lib.p2sh (Signed.ofInt 11) Params.sample) Params.sample :=
  ⟨rfl, rfl, by decide, fun _ => checkBlockSubsidy_coinbase_txIn _ rfl⟩

/-- Modelled from the spec: the reserve `keep` updated, in block order, by
`PreCalcEntangleAmount` for every entangle item of the transactions (§3, the reserves "carried
through coinbase output #4"). -/
def updatedReserve (lib : Lib) (keep : KeepedAmount) (txs : List MsgTx) : KeepedAmount :=
  (txs.flatMap fun tx => ((IsEntangleTx lib tx).getD []).map (·.2)).foldl
    (fun keep v => (PreCalcEntangleAmount lib ⟨v.exTxType, v.amount⟩ keep).2) keep

/-- `Lib.p2sh` reading the reserve script `[0xCC]` as 500 on the Doge chain and `[0xCD]` as
999. -/
def Lib.reserves : Lib :=
  { Lib.p2sh with
    parseKeepedAmount := fun s =>
      .ok (if s = [0xCC] then ⟨1, [⟨expandedTxEntangleDoge, 500⟩]⟩
        else if s = [0xCD] then ⟨1, [⟨expandedTxEntangleDoge, 999⟩]⟩ else ⟨0, []⟩) }

def BlockChain.reserved (pre : Block) : BlockChain :=
  { BlockChain.entangled pre with lib := Lib.reserves }

def withReserve (c : MsgTx) (s : List UInt8) : MsgTx := { c with txOut := c.txOut ++ [⟨0, s⟩] }

/-- The block at the entangle height whose coinbase carries the reserve 500 on the Doge chain. -/
def reserveBlock : Block :=
  sampleBlock 10 [withReserve (entangleCoinbase [0, 100000000000, 0]) [0xCC]]

/-- The block after `reserveBlock` has no entangle item, so the reserve it should carry is
`reserveBlock`'s; its out[3] carries 999 instead, and both blocks are accepted. -/
theorem checkConnectBlock_ignores_reserve :
    (checkConnectBlock (.reserved reserveBlock) (sampleNode 10) reserveBlock
        (poolInputView [200, 201])).isOk ∧
      (checkConnectBlock (.reserved reserveBlock) (sampleNode 11)
        (sampleBlock 11 [withReserve nextCoinbase [0xCD]]) (poolInputView [300, 301])).isOk ∧
      getKeepedAmountFormPreBlock Lib.reserves reserveBlock =
        .ok ⟨1, [⟨expandedTxEntangleDoge, 500⟩]⟩ ∧
      getKeepedAmountFormPreBlock Lib.reserves (sampleBlock 11 [withReserve nextCoinbase [0xCD]]) =
        .ok ⟨1, [⟨expandedTxEntangleDoge, 999⟩]⟩ ∧
      updatedReserve Lib.reserves ⟨1, [⟨expandedTxEntangleDoge, 500⟩]⟩
          [withReserve nextCoinbase [0xCD]] ≠ ⟨1, [⟨expandedTxEntangleDoge, 999⟩]⟩ :=
  ⟨rfl, rfl, rfl, rfl, by decide⟩

/-- The block at the entangle height is accepted with a coinbase of one output, since the pool
check passes every block at that height, and the block after it then panics in
`checkBlockSubsidy`. -/
theorem checkConnectBlock_panics_after_short_coinbase :
    (checkConnectBlock (.entangled (entangleBlock [0])) (sampleNode 10) (entangleBlock [0])
        (poolInputView [200, 201])).isOk ∧
      (∀ pre view amountSubsidy, checkBlockSubsidy Lib.p2sh (entangleBlock [0]) pre
        (Signed.ofInt 10) view amountSubsidy Params.sample = .ok ()) ∧
      checkConnectBlock (.entangled (entangleBlock [0])) (sampleNode 11)
        (sampleBlock 11 [nextCoinbase]) (poolInputView [300, 301]) = .error .panic :=
  ⟨rfl, fun _ _ _ => checkBlockSubsidy_of_le (by decide),
    checkConnectBlock_eq_panic rfl rfl rfl (by decide) (by decide) (by decide) rfl rfl (by decide)⟩

theorem checkBlockFees_ok {lib : Lib} {txHeight : Int32} {view : UtxoViewpoint}
    {chainParams : Params} :
    ∀ {totalFees total : Int64} {txs : List MsgTx},
      checkBlockFees lib txHeight view chainParams totalFees txs = .ok total →
        ∀ tx ∈ txs, ∃ fee, CheckTransactionInputs lib tx txHeight view chainParams = .ok fee
  | _, _, [], _ => fun _ h => absurd h (List.not_mem_nil _)
  | totalFees, total, tx :: rest, h => by
    simp only [checkBlockFees, bind_eq_ok, ite_throw_eq_ok] at h
    obtain ⟨fee, hfee, -, hrest⟩ := h
    exact List.forall_mem_cons.mpr ⟨⟨fee, hfee⟩, checkBlockFees_ok hrest⟩

/-- The entry of `tx` that `getEtsInfoInBlock` should give: `tx` with the rate, per kilobyte of
its serialized size, of the fee `CheckTransactionInputs` validates. -/
def ValidatedRate (lib : Lib) (txHeight : Int32) (view : UtxoViewpoint) (chainParams : Params)
    (info : EtsInfo) (tx : MsgTx) : Prop :=
  info.tx = tx ∧ ∃ fee, CheckTransactionInputs lib tx txHeight view chainParams = .ok fee ∧
    info.feePerKB = fee * 1000 / Signed.ofInt (lib.serializeSize tx)

/-- Once the fee loop of `checkConnectBlock` has passed, `getEtsInfoInBlock` cannot fail: it
gives one entry per transaction, in block order, at the rate of the fee the loop summed. So the
order `checkTxSequence` checks is that of the validated fees. -/
theorem getEtsInfoInBlock_of_checkBlockFees {lib : Lib} {txHeight : Int32} {view : UtxoViewpoint}
    {chainParams : Params} {totalFees total : Int64} {block : Block}
    (h : checkBlockFees lib txHeight view chainParams totalFees block.transactions = .ok total) :
    ∃ infos, getEtsInfoInBlock lib block view chainParams = .ok infos ∧
      List.Forall₂ (ValidatedRate lib txHeight view chainParams) infos block.transactions :=
  mapM_eq_ok_of_forall fun tx htx => by
    obtain ⟨fee, hfee⟩ := checkBlockFees_ok h tx htx
    exact ⟨_, by rw [getFee_of_CheckTransactionInputs hfee, bind_ok]; rfl, rfl, fee, hfee, rfl⟩

theorem getEtsInfoInBlock_of_checkBlockFees_doubleSpend :
    ∃ infos, getEtsInfoInBlock Lib.sample doubleSpendBlock doubleSpendView Params.sample =
      .ok infos ∧ List.Forall₂ (ValidatedRate Lib.sample 9 doubleSpendView Params.sample) infos
        doubleSpendBlock.transactions :=
  @getEtsInfoInBlock_of_checkBlockFees _ _ _ _ 0 1100 _ rfl

end Classzz
