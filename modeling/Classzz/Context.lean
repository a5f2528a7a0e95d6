import Classzz.Difficulty
import Classzz.BlockSanity
import Classzz.Connect

/-! The checks of a header and a block against their place in the chain
(`checkBlockHeaderContext`, `checkBlockContext`) and `CheckConnectBlockTemplate`, which runs
every check of this model on a block built on the tip. Neither header check reads the previous
block that `BlockByHash` finds (`CheckBlockHeaderContext_prev_unread`). -/

namespace Classzz

def LockTimeThreshold : Nat := 500000000

/-- `IsFinalizedTransaction`. -/
def IsFinalizedTransaction (tx : MsgTx) (blockHeight : Int32) (blockTime : Time) : Bool :=
  let lockTime := tx.lockTime
  if lockTime = 0 then true
  else
    let blockTimeOrHeight : Int :=
      if lockTime.toNat < LockTimeThreshold then blockHeight.val else blockTime.unix
    if (lockTime.toNat : Int) < blockTimeOrHeight then true
    else tx.txIn.all (·.sequence = maxUint32)

def BlockChain.MaxBlockSize (b : BlockChain) : Nat := b.excessiveBlockSize.toNat

/-- `checkBlockHeaderContext`. Under `BFFastAdd` only the checkpoints are checked. -/
def checkBlockHeaderContext (b : BlockChain) (header : BlockHeader) (prevNode : BlockNode)
    (flags : BehaviorFlags) : Except Fault Unit := do
  let blockHeight := prevNode.height + 1
  let fastAdd := BehaviorFlag.fastAdd ∈ flags
  let ts := header.timestamp
  (if !fastAdd then do
    let expectedDifficulty ← calcNextRequiredDifficulty b (some prevNode) ts
    let blockDifficulty := header.bits
    if blockDifficulty ≠ expectedDifficulty then
      throw (ruleError .errUnexpectedDifficulty (s!"block difficulty of {blockDifficulty} is " ++
        s!"not the expected value of {expectedDifficulty}"))
    else
      let medianTime := b.CalcPastMedianTime prevNode
      if !ts.After medianTime then
        throw (ruleError .errTimeTooOld
          s!"block timestamp of {ts} is not after expected {medianTime}")
      else pure ()
  else pure ())
  let blockHash := b.lib.blockHash header
  if !b.verifyCheckpoint blockHeight blockHash then
    throw (ruleError .errBadCheckpoint
      s!"block at height {blockHeight} does not match checkpoint hash")
  else do
    let checkpointNode ← b.findPreviousCheckpoint
    match checkpointNode with
    | some checkpointNode =>
      let checkpointHeight := checkpointNode.height
      if blockHeight < checkpointHeight then
        throw (ruleError .errForkTooOld (s!"block at height {blockHeight} forks the main " ++
          s!"chain before the previous checkpoint at height {checkpointHeight}"))
      else pure ()
    | none => pure ()

/-- `CheckBlockHeaderContext`: the sanity and context checks of a header on the tip. -/
def CheckBlockHeaderContext (b : BlockChain) (header : BlockHeader) : Except Fault Unit := do
  let flags : BehaviorFlags := []
  let tip := b.bestTip
  checkBlockHeaderSanity b header b.chainParams.powLimit flags
  checkBlockHeaderContext b header tip flags

/-- The finalization loop of `checkBlockContext`. -/
def checkFinalizedTxs (lib : Lib) (blockHeight : Int32) (blockTime : Time) :
    List MsgTx → Except Fault Unit
  | [] => pure ()
  | tx :: rest =>
    if !IsFinalizedTransaction tx blockHeight blockTime then
      let txHash := lib.txHash tx
      throw (ruleError .errUnfinalizedTx s!"block contains unfinalized transaction {txHash}")
    else checkFinalizedTxs lib blockHeight blockTime rest

/-- `checkBlockContext`. Under `BFFastAdd` neither finalization nor the coinbase height is
checked. -/
def checkBlockContext (b : BlockChain) (block : Block) (prevNode : BlockNode)
    (flags : BehaviorFlags) : Except Fault Unit := do
  let header := block.msgBlock.header
  checkBlockHeaderContext b header prevNode flags
  let maxBlockSize := b.MaxBlockSize
  let numTx := block.msgBlock.transactions.length
  if numTx > maxBlockSize then
    throw (ruleError .errBlockTooBig
      s!"block contains too many transactions - got {numTx}, max {maxBlockSize}")
  else
    let serializedSize := b.lib.blockSerializeSize block.msgBlock
    if serializedSize > maxBlockSize then
      throw (ruleError .errBlockTooBig
        s!"serialized block is too big - got {serializedSize}, max {maxBlockSize}")
    else if BehaviorFlag.fastAdd ∉ flags then do
      let csvState ← b.csvState (some prevNode)
      let blockTime :=
        if csvState = .thresholdActive then b.CalcPastMedianTime prevNode else header.timestamp
      let blockHeight := prevNode.height + 1
      checkFinalizedTxs b.lib blockHeight blockTime block.transactions
      let coinbaseTx ← index block.transactions 0
      checkSerializedHeight coinbaseTx blockHeight
    else pure ()

/-- Modelled from the spec: `newBlockNode(header, parent)` (§3, a `BlockNode` holds its
parent, height, bits, timestamp and cumulative work). -/
def newBlockNode (lib : Lib) (header : BlockHeader) (parent : BlockNode) : BlockNode :=
  ⟨lib.blockHash header, parent.height + 1, header.bits, Signed.ofInt header.timestamp.unix,
    parent.workSum + (CalcWork header.bits).toNat, some parent⟩

/-- `CheckConnectBlockTemplate`: a block on the tip passes sanity without the proof of work,
context, and connection to an empty view. -/
def CheckConnectBlockTemplate (b : BlockChain) (block : Block) :
    Except Fault UtxoViewpoint := do
  let flags : BehaviorFlags := [.noPoWCheck]
  let tip := b.bestTip
  let header := block.msgBlock.header
  if tip.hash ≠ header.prevBlock then
    let tipHash := tip.hash
    let prevBlock := header.prevBlock
    throw (ruleError .errPrevBlockNotBest (s!"previous block must be the current chain tip " ++
      s!"{tipHash}, instead got {prevBlock}"))
  else do
    let flags := flags ++ [.magneticAnomaly]
    checkBlockSanity b block b.chainParams.powLimit flags
    checkBlockContext b block tip flags
    let view := UtxoViewpoint.empty
    let newNode := newBlockNode b.lib header tip
    checkConnectBlock b newNode block view

/-! ### A header older than its parent -/

/-- When `BlockByHash` finds the previous block, the header checks give the same verdict whatever
block it returns. -/
theorem CheckBlockHeaderContext_prev_unread {b : BlockChain} {header : BlockHeader} {prev : Block}
    (h : b.BlockByHash header.prevBlock = .ok prev) (prev' : Block) :
    CheckBlockHeaderContext b header =
      CheckBlockHeaderContext { b with BlockByHash := fun _ => .ok prev' } header := by
  simp only [CheckBlockHeaderContext, checkBlockHeaderSanity_prev_unread _ _ h prev']
  rfl

/-- The timestamps of `node` and its ancestors, newest first, at most `n` of them. -/
def BlockNode.timestamps : Nat → BlockNode → List Int
  | 0, _ => []
  | n + 1, node => node.timestamp.val :: (node.parent.map (BlockNode.timestamps n)).getD []

/-- Modelled from the spec: `node.CalcPastMedianTime()` (§ glossary, "median timestamp of the
last 11 ancestor blocks"): the middle one of the sorted timestamps of the node and up to ten
ancestors. -/
def pastMedianTime (node : BlockNode) : Time :=
  let timestamps := (node.timestamps 11).insertionSort (· ≤ ·)
  Time.ofUnix (timestamps.getD (timestamps.length / 2) 0)

/-- The tip of a three-block chain stamped `1499999000`, `1499999500` and `1500000100`. -/
def laterTip : BlockNode :=
  ⟨⟨1⟩, 2, 0x1d00ffff, 1500000100, 0,
    some ⟨⟨2⟩, 1, 0x1d00ffff, 1499999500, 0, some ⟨⟨3⟩, 0, 0x1d00ffff, 1499999000, 0, none⟩⟩⟩

/-- The sample chain without difficulty adjustment on `laterTip`, whose block `BlockByHash`
returns with the tip's time and whose median time is taken from the tip's ancestors. -/
def BlockChain.laterPrev : BlockChain :=
  { BlockChain.sample with
    chainParams := { Params.sample with noDifficultyAdjustment := true }
    bestTip := laterTip
    BlockByHash := fun hash => if hash = laterTip.hash
      then .ok ⟨⟨⟨⟨2⟩, zeroHash, Time.ofUnix 1500000100, 0x1d00ffff, 0⟩, []⟩, 2⟩
      else .error (.error "block not found")
    CalcPastMedianTime := pastMedianTime }

def earlyHeader : BlockHeader := ⟨⟨1⟩, zeroHash, Time.ofUnix 1500000000, 0x1d00ffff, 0⟩

/-- A header 100 seconds older than its parent, after the SEQ start time and after the median
time `1499999500`, passes both header checks: the sanity check compares with the parent only
when the lookup failed, and the context check only with the median time. The verdict is the
same whatever block the lookup returns. -/
theorem CheckBlockHeaderContext_accepts_before_prev :
    (∃ prev, BlockChain.laterPrev.BlockByHash earlyHeader.prevBlock = .ok prev ∧
      prev.msgBlock.header.timestamp.After earlyHeader.timestamp) ∧
      (BlockChain.laterPrev.chainParams.seqStartTime.toNat : Int) < earlyHeader.timestamp.unix ∧
      CheckBlockHeaderContext .laterPrev earlyHeader = .ok () ∧
      ∀ prev' : Block, CheckBlockHeaderContext .laterPrev earlyHeader =
        CheckBlockHeaderContext { BlockChain.laterPrev with BlockByHash := fun _ => .ok prev' }
          earlyHeader :=
  ⟨⟨_, rfl, rfl⟩, by decide, rfl, CheckBlockHeaderContext_prev_unread rfl⟩

end Classzz
