import Classzz.Go

/-! The data the validator reads: the wire types of blocks and transactions, utxo entries and
views, chain parameters and block nodes. Fields that no modelled function reads are left out. -/

namespace Classzz

/-- A `chainhash.Hash`, as the number `HashToBig` reads from it. -/
structure Hash where
  val : Nat
  deriving DecidableEq, Repr

/-- `hash.String()`: the hash's bytes, reversed, in hexadecimal. -/
instance : ToString Hash := ⟨fun h => hex64 h.val⟩

def zeroHash : Hash := ⟨0⟩

def maxUint32 : UInt32 := 4294967295

/-- A `wire.OutPoint`. -/
structure OutPoint where
  hash : Hash
  index : UInt32
  deriving DecidableEq, Repr

/-- `OutPoint.String()`: the hash and the index, separated by a colon. -/
instance : ToString OutPoint := ⟨fun o => toString o.hash ++ ":" ++ toString o.index⟩

/-- A `wire.TxIn`. -/
structure TxIn where
  previousOutPoint : OutPoint
  signatureScript : List UInt8
  sequence : UInt32
  deriving DecidableEq, Repr

/-- A `wire.TxOut`. -/
structure TxOut where
  value : Int64
  pkScript : List UInt8
  deriving DecidableEq, Repr

/-- A `wire.MsgTx`. -/
structure MsgTx where
  txIn : List TxIn
  txOut : List TxOut
  lockTime : UInt32
  deriving DecidableEq, Repr

/-- A Go `time.Time`: seconds since the epoch and nanoseconds within the second. -/
structure Time where
  unix : Int
  nsec : Nat
  nsec_lt : nsec < 1000000000

namespace Time

/-- `t.After(u)`. -/
def After (t u : Time) : Bool := decide (u.unix < t.unix ∨ (u.unix = t.unix ∧ u.nsec < t.nsec))

/-- The time `time.Unix(s, 0)`. -/
def ofUnix (s : Int) : Time := ⟨s, 0, by decide⟩

/-- `t.Equal(u)`. -/
def Equal (t u : Time) : Bool := decide (t.unix = u.unix ∧ t.nsec = u.nsec)

/-- `t.Add(time.Second * d)`. -/
def addSeconds (t : Time) (d : Int) : Time := ⟨t.unix + d, t.nsec, t.nsec_lt⟩

/-- `t` in a message, by its seconds. -/
instance : ToString Time := ⟨fun t => toString t.unix⟩

end Time

/-- A `wire.BlockHeader`. -/
structure BlockHeader where
  prevBlock : Hash
  merkleRoot : Hash
  timestamp : Time
  bits : UInt32
  nonce : Nat

/-- A `wire.MsgBlock`. -/
structure MsgBlock where
  header : BlockHeader
  transactions : List MsgTx

/-- A `czzutil.Block`: the wire block and the height recorded with it. -/
structure Block where
  msgBlock : MsgBlock
  height : Int32

/-- `block.Transactions()`. -/
def Block.transactions (b : Block) : List MsgTx := b.msgBlock.transactions

/-- A `UtxoEntry`. The packed flags are unpacked into `isCoinBase`, `isPool` and `spent`. -/
structure UtxoEntry where
  amount : Int64
  pkScript : List UInt8
  blockHeight : Int32
  isCoinBase : Bool
  isPool : Bool
  spent : Bool
  deriving DecidableEq, Repr

/-- A `UtxoViewpoint`: the entries it holds, by outpoint. -/
structure UtxoViewpoint where
  entries : OutPoint → Option UtxoEntry

namespace UtxoViewpoint

/-- `view.LookupEntry(op)`, `nil` being `none`. -/
def LookupEntry (v : UtxoViewpoint) (op : OutPoint) : Option UtxoEntry := v.entries op

/-- The view with `op` holding `e`. -/
def insert (v : UtxoViewpoint) (op : OutPoint) (e : UtxoEntry) : UtxoViewpoint :=
  ⟨fun o => if o = op then some e else v.entries o⟩

@[simp] theorem LookupEntry_insert_self (v : UtxoViewpoint) (op : OutPoint) (e : UtxoEntry) :
    (v.insert op e).LookupEntry op = some e := by
  simp [LookupEntry, insert]

@[simp] theorem LookupEntry_insert_ne (v : UtxoViewpoint) {op o : OutPoint} (e : UtxoEntry)
    (h : o ≠ op) : (v.insert op e).LookupEntry o = v.LookupEntry o := by
  simp [LookupEntry, insert, h]

end UtxoViewpoint

/-- The fields of `chaincfg.Params` that the validator reads. -/
structure Params where
  genesisHash : Hash
  powLimit : Nat
  powLimitBits : UInt32
  coinbaseMaturity : UInt16
  subsidyReductionInterval : Int32
  entangleHeight : Int32
  noDifficultyAdjustment : Bool
  /-- `Deployments[DeploymentSEQ].StartTime`. -/
  seqStartTime : UInt64

/-- A `blockNode` of the chain index, with the node it was built on. -/
structure BlockNode where
  hash : Hash
  height : Int32
  bits : UInt32
  timestamp : Int64
  workSum : Nat
  parent : Option BlockNode

/-- The script verification flags of `txscript` that the validator sets. -/
inductive ScriptFlag
  | bip16
  | verifyDERSignatures
  | verifyCheckLockTimeVerify
  | verifyStrictEncoding
  | verifyBip143SigHash
  | verifyLowS
  | verifyNullFail
  | verifySigPushOnly
  | verifyCleanStack
  | verifyCheckDataSig
  | verifySchnorr
  | verifyAllowSegwitRecovery
  | verifyCheckSequenceVerify
  deriving DecidableEq, Repr

/-- A `txscript.ScriptFlags` value, as the set of flags it holds. -/
abbrev ScriptFlags := List ScriptFlag

/-- The behaviour flags of the blockchain package. -/
inductive BehaviorFlag
  | fastAdd
  | noPoWCheck
  | magneticAnomaly
  deriving DecidableEq, Repr

/-- A `BehaviorFlags` value, as the set of flags it holds; `BFNone` is `[]`. -/
abbrev BehaviorFlags := List BehaviorFlag

/-! ### Cross-chain data -/

/-- An `ExpandedTxType`: the foreign chain an entangle item comes from. -/
abbrev ExpandedTxType := UInt8

def expandedTxEntangleDoge : ExpandedTxType := 240

def expandedTxEntangleLtc : ExpandedTxType := 241

/-- A `cross.EntangleTxInfo`: a deposit on a foreign chain that an output of a transaction
claims. `index` is the output of the foreign transaction (`Index`, read as `Vout`), `height` the
foreign block height the depositor gives, and `amount` the deposited amount, a `big.Int`. -/
structure EntangleTxInfo where
  exTxType : ExpandedTxType
  index : UInt32
  height : UInt64
  amount : Int
  extTxHash : List UInt8
  deriving DecidableEq, Repr

/-- A `cross.KeepedItem`: the reserve kept for one foreign chain. -/
structure KeepedItem where
  exTxType : ExpandedTxType
  amount : Int
  deriving DecidableEq, Repr

/-- A `cross.KeepedAmount`, the reserves carried in out[3] of a coinbase. -/
structure KeepedAmount where
  count : UInt8
  items : List KeepedItem
  deriving DecidableEq, Repr

/-- A `cross.EntangleItem`: the type and value that `PreCalcEntangleAmount` rewrites. -/
structure EntangleItem where
  eType : ExpandedTxType
  value : Int
  deriving DecidableEq, Repr

/-- A `cross.EtsInfo`: a transaction with its fee per kilobyte. -/
structure EtsInfo where
  feePerKB : Int64
  tx : MsgTx

/-- A `cross.TuplePubIndex`: what `VerifyEntangleTx` returns for each verified item. -/
structure TuplePubIndex where
  eType : ExpandedTxType
  index : UInt32
  pub : List UInt8
  deriving DecidableEq, Repr

end Classzz
