import Classzz.Wire

/-! The code the validator calls that is not part of this model (`txscript`, `wire`, `czzutil`,
`consensus`, `cross`, the chain state and the foreign-chain clients), as fields of records, so
that every theorem holds whatever they compute. -/

namespace Classzz

/-- The `range` statements over a map of entangle items, each with its own iteration order: the
cache loop and the verification loop of `VerifyEntangleTx`, the maximum-height loop of
`CheckBlockEntangle` and the loop of `handleSummayEntangle`. -/
inductive MapRange where
  | verifyCache
  | verifyItems
  | maxHeight
  | summay
  deriving DecidableEq, Repr

/-- Functions of other packages, and Go's run-time choices, that the modelled code calls. -/
structure Lib where
  /-- `msgTx.SerializeSize()`; a serialized transaction has at least its version and lock time. -/
  serializeSize : MsgTx → Nat
  serializeSize_pos : ∀ tx, 0 < serializeSize tx
  /-- `msgBlock.SerializeSize()`. -/
  blockSerializeSize : MsgBlock → Nat
  /-- `tx.Hash()`. -/
  txHash : MsgTx → Hash
  /-- `header.BlockHash()` and `header.BlockHashNoNonce()`. -/
  blockHash : BlockHeader → Hash
  blockHashNoNonce : BlockHeader → Hash
  /-- `consensus.VerifyBlockSeal` with a head hash and a target, returning no error. -/
  verifyBlockSeal : Hash → Int → Nat → Bool
  /-- The last entry of `BuildMerkleTreeStore(transactions)`. -/
  merkleRoot : List MsgTx → Hash
  /-- `txscript.GetSigOpCount` and `txscript.GetPreciseSigOpCount`, which count opcodes. -/
  getSigOpCount : List UInt8 → ScriptFlags → Int64
  getSigOpCount_nonneg : ∀ s f, 0 ≤ (getSigOpCount s f).val
  getPreciseSigOpCount : List UInt8 → List UInt8 → ScriptFlags → Int64
  getPreciseSigOpCount_nonneg : ∀ s p f, 0 ≤ (getPreciseSigOpCount s p f).val
  /-- `txscript.IsPayToScriptHash`. -/
  isPayToScriptHash : List UInt8 → Bool
  /-- `txscript.GetScriptClass`, as the number of the class. -/
  getScriptClass : List UInt8 → Nat
  /-- `txscript.ExtractPkScriptPub`: the hash a script pays to. -/
  extractPkScriptPub : List UInt8 → Except Fault (List UInt8)
  /-- `czzutil.NewLegacyAddressScriptHash(pub, params).String()` for the parameters whose
  `LegacyScriptHashAddrID` is the given byte. -/
  legacyScriptHashAddress : List UInt8 → UInt8 → Except Fault String
  /-- `czzutil.NewAddressPubKeyHash(pk, params).String()`. -/
  newAddressPubKeyHash : List UInt8 → Params → Except Fault String
  /-- `txscript.ExtractPkScriptAddrs(script, params)`: the script's class, the strings of its
  addresses and the number of signatures it requires; its error is never read. -/
  extractPkScriptAddrs : List UInt8 → Params → Nat × List String × Nat
  /-- `txscript.ComputePk`: the public key recovered from a signature script. -/
  computePk : List UInt8 → Except Fault (List UInt8)
  /-- The entangle item an output script carries, if it has the entangle framing. -/
  entangleInfo : List UInt8 → Option EntangleTxInfo
  /-- `keepInfo.Parse(pkScript)`. -/
  parseKeepedAmount : List UInt8 → Except Fault KeepedAmount
  /-- The minting curves `toDoge(reserve, amount)` and `toLtc(reserve, amount)`. -/
  toDoge : Int → Int → Int
  toLtc : Int → Int → Int
  /-- `cross.VerifyTxsSequence`. -/
  verifyTxsSequence : List EtsInfo → Except Fault Unit
  /-- `czzutil.MaxSatoshi` and `czzutil.SatoshiPerBitcoin`. -/
  maxSatoshi : Int64
  satoshiPerBitcoin : Nat
  /-- `chaincfg.MainNetParams.EntangleHeight`. -/
  mainNetEntangleHeight : Int32
  /-- `rand.Intn(n)`, for `0 < n`. -/
  randIntn : Nat → Nat
  randIntn_lt : ∀ n, 0 < n → randIntn n < n
  /-- The order in which each `range` loop visits a map of entangle items; Go randomises it
  afresh at every loop. -/
  mapOrder : MapRange → List (UInt32 × EntangleTxInfo) → List (UInt32 × EntangleTxInfo)
  mapOrder_perm : ∀ r m, (mapOrder r m).Perm m

/-- A foreign-chain `rpcclient.Client`: what it answers, whatever that is. -/
structure Client where
  getRawTransaction : List UInt8 → Except Fault MsgTx
  getBlockCount : Except Fault Int64

/-- The key of an entangle item in the dedup cache. -/
structure EntangleKey where
  extTxHash : List UInt8
  height : UInt64
  exTxType : ExpandedTxType
  deriving DecidableEq, Repr

/-- Modelled from the spec: `cross.CacheEntangleInfo`, the dedup cache of entangle items
(§4.6: "consult the dedup cache keyed by `(ext_tx_hash, height, ex_type)`"). -/
structure CacheEntangleInfo where
  keys : List EntangleKey

/-- The cache key of an item. -/
def EntangleTxInfo.key (v : EntangleTxInfo) : EntangleKey := ⟨v.extTxHash, v.height, v.exTxType⟩

/-- Modelled from the spec: `cache.FetchEntangleUtxoView(v)`, a hit on the key of `v`. -/
def CacheEntangleInfo.FetchEntangleUtxoView (c : CacheEntangleInfo) (v : EntangleTxInfo) :
    Bool :=
  decide (v.key ∈ c.keys)

/-- A `cross.EntangleVerify`: the foreign-chain clients and the dedup cache. -/
structure EntangleVerify where
  dogeCoinRPC : List Client
  ltcCoinRPC : List Client
  cache : Option CacheEntangleInfo

/-- A BIP 9 `ThresholdState`. -/
inductive ThresholdState
  | thresholdDefined
  | thresholdStarted
  | thresholdLockedIn
  | thresholdActive
  | thresholdFailed
  deriving DecidableEq, Repr

/-- A `SequenceLock`. -/
structure SequenceLock where
  seconds : Int64
  blockHeight : Int32

/-- A `BlockChain`: its parameters, the chain state behind it, and the collaborators of the
blockchain package that are not part of this model. -/
structure BlockChain where
  lib : Lib
  chainParams : Params
  excessiveBlockSize : UInt32
  /-- `b.utxoCache`: the entry it holds for an outpoint, or an I/O error. -/
  fetchUtxo : OutPoint → Except Fault (Option UtxoEntry)
  /-- `b.BlockByHash(hash)`: a block or an error, never both. -/
  BlockByHash : Hash → Except Fault Block
  /-- `b.blockByHashAndHeight(hash, height)`. -/
  blockByHashAndHeight : Hash → Int32 → Except Fault Block
  /-- The height of `b.LatestCheckpoint()`, `none` when there is no checkpoint. -/
  latestCheckpoint : Option Int32
  /-- `b.deploymentState(node, chaincfg.DeploymentCSV)`. -/
  csvState : Option BlockNode → Except Fault ThresholdState
  /-- `node.CalcPastMedianTime()`. -/
  CalcPastMedianTime : BlockNode → Time
  /-- `b.calcSequenceLock(node, tx, view, false)`. -/
  calcSequenceLock : BlockNode → MsgTx → UtxoViewpoint → Except Fault SequenceLock
  /-- `checkBlockScripts(block, view, flags, b.sigCache, b.hashCache)`. -/
  checkBlockScripts : Block → UtxoViewpoint → ScriptFlags → Except Fault Unit
  /-- `b.GetEntangleVerify()`. -/
  entangleVerify : EntangleVerify
  /-- `time.Now()` and `b.timeSource.AdjustedTime()`. -/
  now : Time
  adjustedTime : Time
  /-- `b.bestChain.Tip()`. -/
  bestTip : BlockNode
  /-- `b.verifyCheckpoint(height, hash)`. -/
  verifyCheckpoint : Int32 → Hash → Bool
  /-- `b.findPreviousCheckpoint()`. -/
  findPreviousCheckpoint : Except Fault (Option BlockNode)

/-! ### A sample of the collaborators

Concrete values for the collaborators, from which the sample runs build their inputs: a
transaction hashes to its lock time, every script counts no sigops, seals verify, and the utxo
cache and the block index are empty. -/

/-- Sample functions of the other packages. -/
def Lib.sample : Lib where
  serializeSize _ := 200
  serializeSize_pos _ := Nat.succ_pos 199
  blockSerializeSize _ := 1000
  txHash tx := ⟨tx.lockTime.toNat⟩
  blockHash _ := ⟨0⟩
  blockHashNoNonce _ := ⟨0⟩
  verifyBlockSeal _ _ _ := true
  merkleRoot _ := ⟨0⟩
  getSigOpCount _ _ := 0
  getSigOpCount_nonneg _ _ := Signed.val_zero.ge
  getPreciseSigOpCount _ _ _ := 0
  getPreciseSigOpCount_nonneg _ _ _ := Signed.val_zero.ge
  isPayToScriptHash _ := false
  getScriptClass _ := 2
  extractPkScriptPub s := .ok s
  legacyScriptHashAddress _ _ := .ok ""
  newAddressPubKeyHash _ _ := .ok "pool"
  extractPkScriptAddrs _ _ := (0, [], 0)
  computePk s := .ok s
  entangleInfo _ := none
  parseKeepedAmount _ := .ok ⟨0, []⟩
  toDoge _ a := a
  toLtc _ a := a
  verifyTxsSequence _ := .ok ()
  maxSatoshi := 2100000000000000
  satoshiPerBitcoin := 100000000
  mainNetEntangleHeight := 10
  randIntn _ := 0
  randIntn_lt _ h := h
  mapOrder _ m := m
  mapOrder_perm _ m := List.Perm.refl m

def Params.sample : Params where
  genesisHash := ⟨1⟩
  powLimit := 2 ^ 224 - 1
  powLimitBits := 0x1d00ffff
  coinbaseMaturity := 100
  subsidyReductionInterval := 210000
  entangleHeight := 10
  noDifficultyAdjustment := false
  seqStartTime := 0

def BlockChain.sample : BlockChain where
  lib := Lib.sample
  chainParams := Params.sample
  excessiveBlockSize := 32000000
  fetchUtxo _ := .ok none
  BlockByHash _ := .error (.error "block not found")
  blockByHashAndHeight _ _ := .error (.error "block not found")
  latestCheckpoint := none
  csvState _ := .ok .thresholdDefined
  CalcPastMedianTime _ := Time.ofUnix 0
  calcSequenceLock _ _ _ := .ok ⟨-1, -1⟩
  checkBlockScripts _ _ _ := .ok ()
  entangleVerify := ⟨[], [], some ⟨[]⟩⟩
  now := Time.ofUnix 1600000000
  adjustedTime := Time.ofUnix 1600000000
  bestTip := ⟨⟨1⟩, 0, 0x1d00ffff, 1500000000, 0, none⟩
  verifyCheckpoint _ _ := true
  findPreviousCheckpoint := .ok none

end Classzz
