import Classzz.TxSanity
import Classzz.Compact

/-! The context-free checks of a header and a block: `checkProofOfWork`, `checkBlockHeaderSanity`
and `checkBlockSanity`, where they panic, the canonical transaction order, and the blocks they
accept (`SaneBlock`). -/

namespace Classzz

def allowedFutureBlockTime : Int := 10
def MaxTimeOffsetSeconds : Int := 2 * 60 * 60

/-- `checkProofOfWork`: the target is in `(0, powLimit]` and, unless `BFNoPoWCheck` is set,
the seal verifies. -/
def checkProofOfWork (lib : Lib) (header : BlockHeader) (powLimit : Nat)
    (flags : BehaviorFlags) : Except Fault Unit :=
  let target := CompactToBig header.bits
  let targetHex := hex64 target
  if target ≤ 0 then
    throw (ruleError .errUnexpectedDifficulty s!"block target difficulty of {targetHex} is too low")
  else if target > powLimit then
    let limitHex := hex64 powLimit
    throw (ruleError .errUnexpectedDifficulty (s!"block target difficulty of {targetHex} is " ++
      s!"higher than max of {limitHex}"))
  else if BehaviorFlag.noPoWCheck ∉ flags then
    let hash := lib.blockHashNoNonce header
    if !lib.verifyBlockSeal hash target header.nonce then
      let blockHash := lib.blockHash header
      throw (ruleError .errHighHash (s!"block hash of {blockHash} is higher than " ++
        s!"expected max of {targetHex}"))
    else pure ()
  else pure ()

/-- The pair `(prevblock, err)` that a Go call returning a block or an error gives. -/
def goPair {α : Type} : Except Fault α → Option α × Option Fault
  | .ok a => (some a, none)
  | .error e => (none, some e)

/-- `checkBlockHeaderSanity`. The previous-timestamp test needs `err != nil` and
`prevblock != nil` at once. -/
def checkBlockHeaderSanity (bc : BlockChain) (header : BlockHeader) (powLimit : Nat)
    (flags : BehaviorFlags) : Except Fault Unit := do
  checkProofOfWork bc.lib header powLimit flags
  let ts := header.timestamp
  if !ts.Equal (Time.ofUnix ts.unix) then
    throw (ruleError .errInvalidTime
      s!"block timestamp of {ts} has a higher precision than one second")
  else if ts.After (bc.now.addSeconds allowedFutureBlockTime) then
    throw (ruleError .errInvalidTime s!"block timestamp of {ts} > time.Now()")
  else
    let (prevblock, err) := goPair (bc.BlockByHash header.prevBlock)
    let seqStart : Int64 := Signed.ofInt bc.chainParams.seqStartTime.toNat
    let prevAfter : Except Fault Unit :=
      if err.isSome ∧ seqStart.val < ts.unix then
        match prevblock with
        | some prev =>
          let prevTs := prev.msgBlock.header.timestamp
          if prevTs.After ts then
            throw (ruleError .errInvalidTime s!"prevheader timestamp {prevTs} > header {ts}")
          else pure ()
        | none => pure ()
      else pure ()
    prevAfter >>= fun () =>
    let maxTimestamp := bc.adjustedTime.addSeconds MaxTimeOffsetSeconds
    if ts.After maxTimestamp then
      throw (ruleError .errTimeTooNew s!"block timestamp of {ts} is too far in the future")
    else pure ()

/-- When `BlockByHash` finds the previous block, `err` is nil and the previous-timestamp test is
skipped: the verdict is the same whatever block it returns. -/
theorem checkBlockHeaderSanity_prev_unread {bc : BlockChain} {header : BlockHeader} {prev : Block}
    (powLimit : Nat) (flags : BehaviorFlags) (h : bc.BlockByHash header.prevBlock = .ok prev)
    (prev' : Block) :
    checkBlockHeaderSanity bc header powLimit flags =
      checkBlockHeaderSanity { bc with BlockByHash := fun _ => .ok prev' } header powLimit flags := by
  simp [checkBlockHeaderSanity, h, goPair]

/-- `Hash.Compare`. Modelled from the spec: hashes are ordered by their bytes, read as the
number `HashToBig` gives. -/
def Hash.Compare (a b : Hash) : Int :=
  if a.val < b.val then -1 else if a.val = b.val then 0 else 1

/-- The loop of `checkBlockSanity` over `transactions[1:]`, from index `i` of that slice: no
second coinbase. -/
def checkMultipleCoinbases (lib : Lib) (i : Nat) : List MsgTx → Except Fault Unit
  | [] => pure ()
  | tx :: rest => do
    if (← IsCoinBase lib tx) then
      throw (ruleError .errMultipleCoinbases s!"block contains second coinbase at index {i + 1}")
    else checkMultipleCoinbases lib (i + 1) rest

/-- The per-transaction loop of `checkBlockSanity` from position `i`, `lastTxid` being the
hash of the transaction before it: the canonical order when MagneticAnomaly is active, then
`CheckTransactionSanity`. -/
def checkTransactionsSanity (lib : Lib) (magneticAnomaly : Bool) (scriptFlags : ScriptFlags) :
    Nat → Option Hash → List MsgTx → Except Fault Unit
  | _, _, [] => pure ()
  | i, lastTxid, tx :: rest =>
    let hash := lib.txHash tx
    let outOfOrder : Except Fault Bool :=
      if magneticAnomaly ∧ i > 1 then
        match lastTxid with
        | some last => pure (last.Compare hash ≥ 0)
        | none => .error .panic
      else pure false
    outOfOrder >>= fun bad =>
    if bad then
      throw (ruleError .errInvalidTxOrder "transactions are not in lexicographical order")
    else do
      CheckTransactionSanity lib tx magneticAnomaly scriptFlags
      checkTransactionsSanity lib magneticAnomaly scriptFlags (i + 1) (some hash) rest

/-- The duplicate-transaction loop of `checkBlockSanity`, with the hashes seen so far. -/
def checkDuplicateTxs (lib : Lib) (existingTxHashes : List Hash) :
    List MsgTx → Except Fault Unit
  | [] => pure ()
  | tx :: rest =>
    let hash := lib.txHash tx
    if hash ∈ existingTxHashes then
      throw (ruleError .errDuplicateTx s!"block contains duplicate transaction {hash}")
    else checkDuplicateTxs lib (hash :: existingTxHashes) rest

/-- The checks of `checkBlockSanity` after the coinbase tests: the per-transaction loop, the
merkle root and the duplicate transactions. -/
def checkBlockTransactions (lib : Lib) (header : BlockHeader) (transactions : List MsgTx)
    (flags : BehaviorFlags) : Except Fault Unit := do
  let magneticAnomaly := decide (BehaviorFlag.magneticAnomaly ∈ flags)
  let scriptFlags : ScriptFlags :=
    if magneticAnomaly then [.verifySigPushOnly, .verifyCleanStack, .verifyCheckDataSig] else []
  checkTransactionsSanity lib magneticAnomaly scriptFlags 0 none transactions
  let calculatedMerkleRoot := lib.merkleRoot transactions
  if header.merkleRoot ≠ calculatedMerkleRoot then
    let headerRoot := header.merkleRoot
    throw (ruleError .errBadMerkleRoot (s!"block merkle root is invalid - block " ++
      s!"header indicates {headerRoot}, but calculated value is {calculatedMerkleRoot}"))
  else checkDuplicateTxs lib [] transactions

/-- `checkBlockSanity`. -/
def checkBlockSanity (b : BlockChain) (block : Block) (powLimit : Nat) (flags : BehaviorFlags) :
    Except Fault Unit := do
  let msgBlock := block.msgBlock
  let header := msgBlock.header
  checkBlockHeaderSanity b header powLimit flags
  let numTx := msgBlock.transactions.length
  if numTx = 0 then
    throw (ruleError .errNoTransactions "block does not contain any transactions")
  else do
  let transactions := block.transactions
  let tx0 ← index transactions 0
  if !(← IsCoinBase b.lib tx0) then
    throw (ruleError .errFirstTxNotCoinbase "first transaction in block is not a coinbase")
  else do
  checkMultipleCoinbases b.lib 0 (transactions.drop 1)
  checkBlockTransactions b.lib header transactions flags

/-! ### Where `checkBlockSanity` panics -/

/-- The transactions reach one without inputs before any coinbase. -/
def ReachesInputless (lib : Lib) : List MsgTx → Prop
  | [] => False
  | tx :: rest => tx.txIn = [] ∨ (IsCoinBase lib tx = .ok false ∧ ReachesInputless lib rest)

theorem checkMultipleCoinbases_eq_panic (lib : Lib) (i : Nat) (txs : List MsgTx) :
    checkMultipleCoinbases lib i txs = .error .panic ↔ ReachesInputless lib txs := by
  induction txs generalizing i with
  | nil => simp [checkMultipleCoinbases, ReachesInputless, pure, Except.pure]
  | cons tx rest ih =>
    simp only [checkMultipleCoinbases, ReachesInputless]
    by_cases hin : tx.txIn = []
    · simp [hin, IsCoinBase, IsCoinBaseTx, coinBaseAt_eq_panic.mpr hin, bind, Except.bind]
    · obtain ⟨c, hc⟩ := @coinBaseAt_ok lib.mainNetEntangleHeight _ hin
      cases c <;> simp [IsCoinBase, IsCoinBaseTx, hc, hin, bind_ok, ih, throw, throwThe,
        MonadExceptOf.throw, ruleError]

theorem checkTransactionsSanity_ruleOnly (lib : Lib) (ma : Bool) (flags : ScriptFlags)
    (txs : List MsgTx) (i : Nat) (last : Option Hash) (hl : 1 < i → last.isSome) :
    RuleOnly (checkTransactionsSanity lib ma flags i last txs) := by
  induction txs generalizing i last with
  | nil => exact RuleOnly.pure ()
  | cons tx rest ih =>
    refine RuleOnly.bind ?_ fun bad _ => RuleOnly.ite (fun _ => RuleOnly.rule _ _) fun _ =>
      RuleOnly.bind (CheckTransactionSanity_ruleOnly _ _ _ _) fun _ _ => ih _ _ fun _ => rfl
    refine RuleOnly.ite (fun hi => ?_) fun _ => RuleOnly.pure _
    obtain ⟨l, rfl⟩ := Option.isSome_iff_exists.mp (hl hi.2)
    exact RuleOnly.pure _

theorem checkDuplicateTxs_ruleOnly (lib : Lib) (seen : List Hash) (txs : List MsgTx) :
    RuleOnly (checkDuplicateTxs lib seen txs) := by
  induction txs generalizing seen with
  | nil => exact RuleOnly.pure ()
  | cons tx rest ih => exact RuleOnly.ite (fun _ => RuleOnly.rule _ _) fun _ => ih _

theorem checkBlockTransactions_ruleOnly (lib : Lib) (header : BlockHeader) (txs : List MsgTx)
    (flags : BehaviorFlags) : RuleOnly (checkBlockTransactions lib header txs flags) :=
  RuleOnly.bind (checkTransactionsSanity_ruleOnly _ _ _ _ _ _ fun h => absurd h (by decide))
    fun _ _ => RuleOnly.ite (fun _ => RuleOnly.rule _ _) fun _ => checkDuplicateTxs_ruleOnly _ _ _

/-- The coinbase tests of `checkBlockSanity` read `TxIn[0]` of a transaction without inputs:
the first transaction has none, or the first is a coinbase and a transaction without inputs
comes before any second coinbase. -/
def ReadsInputless (lib : Lib) : List MsgTx → Prop
  | [] => False
  | tx0 :: rest => tx0.txIn = [] ∨ (IsCoinBase lib tx0 = .ok true ∧ ReachesInputless lib rest)

/-- For a block whose header passes, `checkBlockSanity` panics exactly when its coinbase tests
read `TxIn[0]` of a transaction without inputs. -/
theorem checkBlockSanity_eq_panic {b : BlockChain} {block : Block} {powLimit : Nat}
    {flags : BehaviorFlags}
    (hh : checkBlockHeaderSanity b block.msgBlock.header powLimit flags = .ok ()) :
    checkBlockSanity b block powLimit flags = .error .panic ↔
      ReadsInputless b.lib block.transactions := by
  simp only [checkBlockSanity, hh, bind_ok, Block.transactions]
  cases block.msgBlock.transactions with
  | nil => simp [ReadsInputless, throw, throwThe, MonadExceptOf.throw, ruleError]
  | cons tx0 rest =>
    simp only [ReadsInputless, List.length_cons, Nat.add_one_ne_zero, if_false, index,
      List.getElem?_cons_zero, bind_ok, List.drop_succ_cons, List.drop_zero, IsCoinBase,
      IsCoinBaseTx]
    by_cases hin : tx0.txIn = []
    · simp [hin, coinBaseAt_eq_panic.mpr hin, bind_error]
    · obtain ⟨c, hc⟩ := @coinBaseAt_ok b.lib.mainNetEntangleHeight _ hin
      simp only [hc, bind_ok, hin, false_or]
      cases c
      · simp [throw, throwThe, MonadExceptOf.throw, ruleError]
      · simp only [Bool.not_true, Bool.false_eq_true, if_false, true_and,
          ← checkMultipleCoinbases_eq_panic b.lib 0]
        cases checkMultipleCoinbases b.lib 0 rest with
        | error e => simp [bind_error]
        | ok u =>
          simpa [bind_ok] using (checkBlockTransactions_ruleOnly b.lib block.msgBlock.header
            (tx0 :: rest) flags).not_panic

theorem checkBlockSanity_inputless_block_panics :
    checkBlockHeaderSanity BlockChain.sample
        ⟨zeroHash, zeroHash, Time.ofUnix 1500000000, 0x1d00ffff, 0⟩ (2 ^ 224 - 1) [] = .ok () ∧
      checkBlockSanity BlockChain.sample
        ⟨⟨⟨zeroHash, zeroHash, Time.ofUnix 1500000000, 0x1d00ffff, 0⟩,
          [⟨[], [⟨1, []⟩], 0⟩]⟩, 0⟩ (2 ^ 224 - 1) [] = .error .panic :=
  have hh : checkBlockHeaderSanity BlockChain.sample
      ⟨zeroHash, zeroHash, Time.ofUnix 1500000000, 0x1d00ffff, 0⟩ (2 ^ 224 - 1) [] = .ok () :=
    rfl
  ⟨hh, (@checkBlockSanity_eq_panic _ ⟨⟨⟨zeroHash, zeroHash, Time.ofUnix 1500000000, 0x1d00ffff, 0⟩,
    [⟨[], [⟨1, []⟩], 0⟩]⟩, 0⟩ _ _ hh).mpr (Or.inl rfl)⟩

/-! ### The canonical transaction order

With MagneticAnomaly the loop compares each hash with the one before it, from position 2 on,
where `lastTxid` has been set. The adjacent tests and the transitivity of `Hash.Compare` give
the order of the whole of `transactions[1:]`. -/

theorem Hash.Compare_neg_iff (a b : Hash) : a.Compare b < 0 ↔ a.val < b.val := by
  unfold Hash.Compare; split_ifs <;> omega

theorem checkTransactionsSanity_chain {lib : Lib} {flags : ScriptFlags} :
    ∀ {i : Nat} {last : Hash} {txs : List MsgTx}, 1 < i →
      checkTransactionsSanity lib true flags i (some last) txs = .ok () →
      (txs.map lib.txHash).Chain (fun a c => a.Compare c < 0) last
  | _, _, [], _, _ => .nil
  | i, last, tx :: rest, hi, h => by
    simp only [checkTransactionsSanity, true_and, hi, if_true, pure_bind, ite_throw_eq_ok,
      bind_eq_ok] at h
    obtain ⟨hlt, _, _, hrest⟩ := h
    exact .cons (by simpa using hlt) (checkTransactionsSanity_chain (by omega) hrest)

theorem checkTransactionsSanity_codes_of_chain {lib : Lib} {flags : ScriptFlags} :
    ∀ {i : Nat} {last : Hash} {txs : List MsgTx}, 1 < i →
      (txs.map lib.txHash).Chain (fun a c => a.Compare c < 0) last →
      RuleCodes txSanityCodes (checkTransactionsSanity lib true flags i (some last) txs)
  | _, _, [], _, _ => RuleCodes.pure ()
  | i, last, tx :: rest, hi, .cons hlt hrest => by
    simp only [checkTransactionsSanity, true_and, hi, if_true, pure_bind]
    refine RuleCodes.ite (fun hge => absurd hlt (by simpa using hge)) fun _ => ?_
    exact RuleCodes.bind (CheckTransactionSanity_codes _ _ _ _) fun _ _ =>
      checkTransactionsSanity_codes_of_chain (by omega) hrest

theorem checkTransactionsSanity_cons_unordered {lib : Lib} {ma : Bool} {flags : ScriptFlags}
    {i : Nat} {last : Option Hash} {tx : MsgTx} {rest : List MsgTx} (hi : i ≤ 1) :
    checkTransactionsSanity lib ma flags i last (tx :: rest) =
      CheckTransactionSanity lib tx ma flags >>= fun _ =>
        checkTransactionsSanity lib ma flags (i + 1) (some (lib.txHash tx)) rest := by
  simp only [checkTransactionsSanity, show ¬i > 1 by omega, and_false, if_false, pure_bind,
    Bool.false_eq_true]

/-- From position 0 the loop passes only if the hashes of `transactions[1:]` increase at each
step. -/
theorem checkTransactionsSanity_ordered {lib : Lib} {flags : ScriptFlags} {txs : List MsgTx}
    (h : checkTransactionsSanity lib true flags 0 none txs = .ok ()) :
    ((txs.drop 1).map lib.txHash).Chain' fun a c => a.Compare c < 0 := by
  match txs, h with
  | [], _ | [_], _ => exact List.chain'_nil
  | tx0 :: tx1 :: rest, h =>
    rw [checkTransactionsSanity_cons_unordered (by decide), bind_eq_ok] at h
    obtain ⟨_, _, h⟩ := h
    rw [checkTransactionsSanity_cons_unordered (by decide), bind_eq_ok] at h
    obtain ⟨_, _, h⟩ := h
    exact checkTransactionsSanity_chain (by decide) h

theorem checkTransactionsSanity_codes_of_ordered {lib : Lib} {flags : ScriptFlags}
    {txs : List MsgTx} (h : ((txs.drop 1).map lib.txHash).Chain' fun a c => a.Compare c < 0) :
    RuleCodes txSanityCodes (checkTransactionsSanity lib true flags 0 none txs) := by
  match txs, h with
  | [], _ => exact RuleCodes.pure ()
  | [_], _ =>
    rw [checkTransactionsSanity_cons_unordered (by decide)]
    exact RuleCodes.bind (CheckTransactionSanity_codes _ _ _ _) fun _ _ => RuleCodes.pure ()
  | tx0 :: tx1 :: rest, h =>
    rw [checkTransactionsSanity_cons_unordered (by decide)]
    refine RuleCodes.bind (CheckTransactionSanity_codes _ _ _ _) fun _ _ => ?_
    rw [checkTransactionsSanity_cons_unordered (by decide)]
    exact RuleCodes.bind (CheckTransactionSanity_codes _ _ _ _) fun _ _ =>
      checkTransactionsSanity_codes_of_chain (by decide) h

theorem checkProofOfWork_codes (lib : Lib) (header : BlockHeader) (powLimit : Nat)
    (flags : BehaviorFlags) :
    RuleCodes [.errUnexpectedDifficulty, .errHighHash]
      (checkProofOfWork lib header powLimit flags) := by
  unfold checkProofOfWork
  repeat' apply RuleCodes.ite <;> intro
  all_goals first | exact RuleCodes.rule (by simp) _ | exact RuleCodes.pure ()

theorem checkBlockHeaderSanity_codes (bc : BlockChain) (header : BlockHeader)
    (powLimit : Nat) (flags : BehaviorFlags) :
    RuleCodes [.errUnexpectedDifficulty, .errHighHash, .errInvalidTime, .errTimeTooNew]
      (checkBlockHeaderSanity bc header powLimit flags) := by
  refine RuleCodes.bind ((checkProofOfWork_codes _ _ _ _).mono (by simp)) fun _ _ => ?_
  refine RuleCodes.ite (fun _ => RuleCodes.rule (by simp) _) fun _ => ?_
  refine RuleCodes.ite (fun _ => RuleCodes.rule (by simp) _) fun _ => ?_
  refine RuleCodes.bind ?_ fun _ _ => RuleCodes.ite (fun _ => RuleCodes.rule (by simp) _) fun _ =>
    RuleCodes.pure ()
  refine RuleCodes.ite (fun _ => ?_) fun _ => RuleCodes.pure ()
  split
  · exact RuleCodes.ite (fun _ => RuleCodes.rule (by simp) _) fun _ => RuleCodes.pure ()
  · exact RuleCodes.pure ()

theorem checkMultipleCoinbases_codes (lib : Lib) (i : Nat) (txs : List MsgTx) :
    RuleCodes [.errMultipleCoinbases] (checkMultipleCoinbases lib i txs) := by
  induction txs generalizing i with
  | nil => exact RuleCodes.pure ()
  | cons tx rest ih =>
    exact RuleCodes.bind (coinBaseAt_codes _ _ _) fun _ _ =>
      RuleCodes.ite (fun _ => RuleCodes.rule (List.mem_singleton_self _) _) fun _ => ih _

theorem checkDuplicateTxs_codes (lib : Lib) (seen : List Hash) (txs : List MsgTx) :
    RuleCodes [.errDuplicateTx] (checkDuplicateTxs lib seen txs) := by
  induction txs generalizing seen with
  | nil => exact RuleCodes.pure ()
  | cons tx rest ih =>
    exact RuleCodes.ite (fun _ => RuleCodes.rule (List.mem_singleton_self _) _) fun _ => ih _

theorem checkBlockTransactions_codes_of_ordered {lib : Lib} {header : BlockHeader}
    {txs : List MsgTx} {flags : BehaviorFlags} (hma : BehaviorFlag.magneticAnomaly ∈ flags)
    (h : ((txs.drop 1).map lib.txHash).Chain' fun a c => a.Compare c < 0) :
    RuleCodes (.errBadMerkleRoot :: .errDuplicateTx :: txSanityCodes)
      (checkBlockTransactions lib header txs flags) := by
  simp only [checkBlockTransactions, decide_eq_true hma, if_true]
  refine RuleCodes.bind ((checkTransactionsSanity_codes_of_ordered h).mono (by simp)) fun _ _ => ?_
  exact RuleCodes.ite (fun _ => RuleCodes.rule (by simp) _) fun _ =>
    (checkDuplicateTxs_codes _ _ _).mono (by simp)

def blockSanityCodes : List ErrorCode :=
  [.errUnexpectedDifficulty, .errHighHash, .errInvalidTime, .errTimeTooNew, .errNoTransactions,
    .errFirstTxNotCoinbase, .errMultipleCoinbases, .errBadMerkleRoot, .errDuplicateTx] ++
    txSanityCodes

theorem checkBlockSanity_codes_of_ordered {b : BlockChain} {block : Block} {powLimit : Nat}
    {flags : BehaviorFlags} (hma : BehaviorFlag.magneticAnomaly ∈ flags)
    (h : ((block.transactions.drop 1).map b.lib.txHash).Chain' fun a c => a.Compare c < 0) :
    RuleCodes blockSanityCodes (checkBlockSanity b block powLimit flags) := by
  refine RuleCodes.bind ((checkBlockHeaderSanity_codes _ _ _ _).mono (by decide)) fun _ _ => ?_
  refine RuleCodes.ite (fun _ => RuleCodes.rule (by decide) _) fun _ => ?_
  refine RuleCodes.bind (RuleCodes.index _ _) fun tx0 _ => ?_
  refine RuleCodes.bind (coinBaseAt_codes _ _ _) fun _ _ => ?_
  refine RuleCodes.ite (fun _ => RuleCodes.rule (by decide) _) fun _ => ?_
  refine RuleCodes.bind ((checkMultipleCoinbases_codes _ _ _).mono (by decide)) fun _ _ => ?_
  exact (checkBlockTransactions_codes_of_ordered hma h).mono (by decide)

theorem checkBlockSanity_transactions_ok {b : BlockChain} {block : Block} {powLimit : Nat}
    {flags : BehaviorFlags} (h : checkBlockSanity b block powLimit flags = .ok ()) :
    checkBlockTransactions b.lib block.msgBlock.header block.transactions flags = .ok () := by
  simp only [checkBlockSanity, bind_eq_ok, ite_throw_eq_ok] at h
  obtain ⟨_, _, _, _, _, _, _, _, _, _, h⟩ := h
  exact h

/-- With MagneticAnomaly, a block that passes `checkBlockSanity` has the hashes of
`transactions[1:]` strictly increasing under `Hash.Compare`, hence pairwise distinct; and a block
whose hashes there increase at each step is never rejected with `ErrInvalidTxOrder`. -/
theorem checkBlockSanity_canonical_order {b : BlockChain} {block : Block} {powLimit : Nat}
    {flags : BehaviorFlags} (hma : BehaviorFlag.magneticAnomaly ∈ flags) :
    (checkBlockSanity b block powLimit flags = .ok () →
      ((block.transactions.drop 1).map b.lib.txHash).Pairwise (fun a c => a.Compare c < 0) ∧
        ((block.transactions.drop 1).map b.lib.txHash).Nodup) ∧
      (((block.transactions.drop 1).map b.lib.txHash).Chain' (fun a c => a.Compare c < 0) →
        ∀ d, checkBlockSanity b block powLimit flags ≠ .error (ruleError .errInvalidTxOrder d)) := by
  refine ⟨fun h => ?_, fun h => (checkBlockSanity_codes_of_ordered hma h).ne_rule (by decide)⟩
  have htx := checkBlockSanity_transactions_ok h
  simp only [checkBlockTransactions, decide_eq_true hma, if_true, bind_eq_ok] at htx
  obtain ⟨_, hloop, -⟩ := htx
  have : IsTrans Hash fun a c => a.Compare c < 0 :=
    ⟨fun a c e hac hce => by rw [Hash.Compare_neg_iff] at *; omega⟩
  have hsorted := List.chain'_iff_pairwise.mp (checkTransactionsSanity_ordered hloop)
  exact ⟨hsorted, hsorted.imp fun hlt heq => by subst heq; simp [Hash.Compare] at hlt⟩

/-- A coinbase at height 1, whose script pushes the height and one more byte, paying 50. -/
def ctorCoinbase : MsgTx :=
  ⟨[⟨⟨zeroHash, maxUint32⟩, coinbaseHeightScript 1 ++ [7], maxUint32⟩], [⟨50, []⟩], 0⟩

/-- A transaction spending `n:0` into one output; its lock time, and so under `Lib.sample` its
hash, is `n`. -/
def ctorSpend (n : Nat) : MsgTx := ⟨[⟨⟨⟨n⟩, 0⟩, [], maxUint32⟩], [⟨1, []⟩], UInt32.ofNat n⟩

def ctorBlock (ns : List Nat) : Block :=
  ⟨⟨⟨zeroHash, zeroHash, Time.ofUnix 1500000000, 0x1d00ffff, 0⟩,
    ctorCoinbase :: ns.map ctorSpend⟩, 1⟩

theorem checkBlockSanity_canonical_order_at :
    BehaviorFlag.magneticAnomaly ∈ [BehaviorFlag.magneticAnomaly] ∧
      checkBlockSanity .sample (ctorBlock [1, 2]) (2 ^ 224 - 1) [.magneticAnomaly] = .ok () ∧
      (((ctorBlock [1, 2]).transactions.drop 1).map BlockChain.sample.lib.txHash).Pairwise
        (fun a c => a.Compare c < 0) ∧
      (∀ d, checkBlockSanity .sample (ctorBlock [1, 2]) (2 ^ 224 - 1) [.magneticAnomaly] ≠
        .error (ruleError .errInvalidTxOrder d)) ∧
      checkBlockSanity .sample (ctorBlock [2, 1]) (2 ^ 224 - 1) [.magneticAnomaly] =
        .error (ruleError .errInvalidTxOrder "transactions are not in lexicographical order") :=
  have h : checkBlockSanity .sample (ctorBlock [1, 2]) (2 ^ 224 - 1) [.magneticAnomaly] = .ok () :=
    rfl
  ⟨by decide, h, ((checkBlockSanity_canonical_order (by decide)).1 h).1,
    (checkBlockSanity_canonical_order (by decide)).2 (.cons (by decide) .nil), rfl⟩

/-! ### What `checkBlockSanity` accepts

Each loop of `checkBlockSanity` accepts exactly when its rule holds, so the check returns `nil`
exactly on the blocks that satisfy `SaneBlock`. -/

theorem checkMultipleCoinbases_eq_ok_iff (lib : Lib) (i : Nat) (txs : List MsgTx) :
    checkMultipleCoinbases lib i txs = .ok () ↔ ∀ tx ∈ txs, IsCoinBase lib tx = .ok false := by
  induction txs generalizing i with
  | nil => simp [checkMultipleCoinbases, pure, Except.pure]
  | cons tx rest ih =>
    simp only [checkMultipleCoinbases, List.forall_mem_cons, ← ih (i + 1)]
    cases IsCoinBase lib tx with
    | error e => simp [bind_error]
    | ok c => cases c <;> simp [bind_ok, throw, throwThe, MonadExceptOf.throw]

theorem checkDuplicateTxs_eq_ok_iff (lib : Lib) (seen : List Hash) (txs : List MsgTx) :
    checkDuplicateTxs lib seen txs = .ok () ↔
      (txs.map lib.txHash).Nodup ∧ ∀ tx ∈ txs, lib.txHash tx ∉ seen := by
  induction txs generalizing seen with
  | nil => simp [checkDuplicateTxs, pure, Except.pure]
  | cons tx rest ih =>
    simp only [checkDuplicateTxs, ite_throw_eq_ok, ih, List.map_cons, List.nodup_cons,
      List.mem_map, List.mem_cons, not_or, not_exists, not_and, forall_eq_or_imp]
    constructor
    · rintro ⟨hs, hnd, hall⟩
      exact ⟨⟨fun t ht => (hall t ht).1, hnd⟩, hs, fun t ht => (hall t ht).2⟩
    · rintro ⟨⟨hne, hnd⟩, hs, hall⟩
      exact ⟨hs, hnd, fun t ht => ⟨hne t ht, hall t ht⟩⟩

theorem checkTransactionsSanity_eq_ok_iff {lib : Lib} {ma : Bool} {flags : ScriptFlags} :
    ∀ {i : Nat} {last : Hash} {txs : List MsgTx}, 1 < i →
      (checkTransactionsSanity lib ma flags i (some last) txs = .ok () ↔
        (∀ tx ∈ txs, CheckTransactionSanity lib tx ma flags = .ok ()) ∧
          (ma = true → (txs.map lib.txHash).Chain (fun a c => a.Compare c < 0) last))
  | _, _, [], _ => by simp [checkTransactionsSanity, pure, Except.pure]
  | i, last, tx :: rest, hi => by
    have ih := @checkTransactionsSanity_eq_ok_iff lib ma flags (i + 1) (lib.txHash tx) rest
      (by omega)
    cases ma
    · simp only [checkTransactionsSanity, Bool.false_eq_true, false_and, if_false, pure_bind,
        bind_unit_eq_ok, ih, List.forall_mem_cons, false_implies, and_true]
    · simp only [checkTransactionsSanity, true_and, hi, if_true, pure_bind, ite_throw_eq_ok,
        bind_unit_eq_ok, ih, List.forall_mem_cons, List.map_cons, List.chain_cons,
        decide_eq_true_eq, not_le, forall_const]
      constructor
      · rintro ⟨hlt, hsane, hrest, hchain⟩
        exact ⟨⟨hsane, hrest⟩, hlt, hchain⟩
      · rintro ⟨⟨hsane, hrest⟩, hlt, hchain⟩
        exact ⟨hlt, hsane, hrest, hchain⟩

theorem checkTransactionsSanity_zero_eq_ok_iff {lib : Lib} {ma : Bool} {flags : ScriptFlags}
    (txs : List MsgTx) :
    checkTransactionsSanity lib ma flags 0 none txs = .ok () ↔
      (∀ tx ∈ txs, CheckTransactionSanity lib tx ma flags = .ok ()) ∧
        (ma = true → (txs.tail.map lib.txHash).Chain' fun a c => a.Compare c < 0) := by
  match txs with
  | [] => simp [checkTransactionsSanity, pure, Except.pure]
  | [tx0] =>
    rw [checkTransactionsSanity_cons_unordered (by omega)]
    simp [bind_unit_eq_ok, checkTransactionsSanity, pure, Except.pure]
  | tx0 :: tx1 :: rest =>
    simp only [checkTransactionsSanity_cons_unordered (show 0 ≤ 1 by omega),
      checkTransactionsSanity_cons_unordered (show 0 + 1 ≤ 1 by omega), bind_unit_eq_ok,
      checkTransactionsSanity_eq_ok_iff (show 1 < 0 + 1 + 1 by omega), List.forall_mem_cons,
      List.tail_cons, List.map_cons, and_assoc]
    rfl

/-- The rules of a sane block, one field per test of `checkBlockSanity`. With MagneticAnomaly in
`flags` every transaction is checked with the script flags of the November 2018 fork and
`transactions[1:]` must be in canonical order. -/
structure SaneBlock (b : BlockChain) (block : Block) (powLimit : Nat) (flags : BehaviorFlags) :
    Prop where
  header : checkBlockHeaderSanity b block.msgBlock.header powLimit flags = .ok ()
  coinbase : ∃ tx0 ∈ block.transactions.head?, IsCoinBase b.lib tx0 = .ok true
  oneCoinbase : ∀ tx ∈ block.transactions.tail, IsCoinBase b.lib tx = .ok false
  saneTxs : ∀ tx ∈ block.transactions, CheckTransactionSanity b.lib tx
    (decide (BehaviorFlag.magneticAnomaly ∈ flags))
    (if BehaviorFlag.magneticAnomaly ∈ flags then
      [.verifySigPushOnly, .verifyCleanStack, .verifyCheckDataSig] else []) = .ok ()
  ordered : BehaviorFlag.magneticAnomaly ∈ flags →
    (block.transactions.tail.map b.lib.txHash).Chain' fun a c => a.Compare c < 0
  merkleRoot : block.msgBlock.header.merkleRoot = b.lib.merkleRoot block.transactions
  distinctTxs : (block.transactions.map b.lib.txHash).Nodup

theorem checkBlockTransactions_eq_ok_iff (lib : Lib) (header : BlockHeader) (txs : List MsgTx)
    (flags : BehaviorFlags) :
    checkBlockTransactions lib header txs flags = .ok () ↔
      (∀ tx ∈ txs, CheckTransactionSanity lib tx (decide (BehaviorFlag.magneticAnomaly ∈ flags))
        (if BehaviorFlag.magneticAnomaly ∈ flags then
          [.verifySigPushOnly, .verifyCleanStack, .verifyCheckDataSig] else []) = .ok ()) ∧
      (BehaviorFlag.magneticAnomaly ∈ flags →
        (txs.tail.map lib.txHash).Chain' fun a c => a.Compare c < 0) ∧
      header.merkleRoot = lib.merkleRoot txs ∧ (txs.map lib.txHash).Nodup := by
  simp only [checkBlockTransactions, decide_eq_true_eq, bind_unit_eq_ok, ite_throw_eq_ok,
    not_not, checkTransactionsSanity_zero_eq_ok_iff, checkDuplicateTxs_eq_ok_iff,
    List.not_mem_nil, not_false_eq_true, implies_true, and_true, and_assoc]

/-- `checkBlockSanity` returns `nil` exactly on the blocks that satisfy `SaneBlock`: one
coinbase, first; every transaction sane; the canonical order with MagneticAnomaly; the merkle
root of the transactions in the header; and no transaction twice. -/
theorem checkBlockSanity_eq_ok_iff (b : BlockChain) (block : Block) (powLimit : Nat)
    (flags : BehaviorFlags) :
    checkBlockSanity b block powLimit flags = .ok () ↔ SaneBlock b block powLimit flags := by
  obtain ⟨⟨header, txs⟩, height⟩ := block
  by_cases hh : checkBlockHeaderSanity b header powLimit flags = .ok ()
  swap
  · exact iff_of_false (fun h => hh (bind_unit_eq_ok.mp h).1) fun h => hh h.header
  simp only [checkBlockSanity, hh, bind_ok, Block.transactions]
  cases txs with
  | nil =>
    refine iff_of_false (by simp [throw, throwThe, MonadExceptOf.throw]) fun h => ?_
    obtain ⟨_, h0, -⟩ := h.coinbase
    simp [Block.transactions] at h0
  | cons tx0 rest =>
    simp only [List.length_cons, Nat.add_one_ne_zero, if_false, index, List.getElem?_cons_zero,
      bind_ok, List.drop_succ_cons, List.drop_zero]
    have hfirst : SaneBlock b ⟨⟨header, tx0 :: rest⟩, height⟩ powLimit flags →
        IsCoinBase b.lib tx0 = .ok true := fun h => by
      obtain ⟨_, h0, h1⟩ := h.coinbase
      cases Option.mem_def.mp h0
      exact h1
    cases hc : IsCoinBase b.lib tx0 with
    | error e => exact iff_of_false (by simp [bind_error]) fun h => by simpa [hc] using hfirst h
    | ok c =>
      cases c
      · exact iff_of_false (by simp [bind_ok, throw, throwThe, MonadExceptOf.throw])
          fun h => by simpa [hc] using hfirst h
      · simp only [bind_ok, Bool.not_true, Bool.false_eq_true, if_false, bind_unit_eq_ok,
          checkMultipleCoinbases_eq_ok_iff, checkBlockTransactions_eq_ok_iff]
        constructor
        · rintro ⟨hcoins, hsane, hord, hroot, hnd⟩
          exact ⟨hh, ⟨tx0, rfl, hc⟩, hcoins, hsane, hord, hroot, hnd⟩
        · rintro ⟨-, -, hcoins, hsane, hord, hroot, hnd⟩
          exact ⟨hcoins, hsane, hord, hroot, hnd⟩

end Classzz
