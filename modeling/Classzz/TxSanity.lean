import Classzz.Coinbase

/-! The context-free checks of one transaction: `CountSigOps` and `CheckTransactionSanity`, with
its three loops as functions of their own, and the transactions it accepts (`SaneTx`). -/

namespace Classzz

/-- The constants `MaxTransactionSize`, `MinTransactionSize`, `MaxTransactionSigOps`,
`MinCoinbaseScriptLen` and `MaxCoinbaseScriptLen`. -/
def MaxTransactionSize : Nat := 1000000
def MinTransactionSize : Nat := 100
def MaxTransactionSigOps : Int := 20000
def MinCoinbaseScriptLen : Nat := 2
def MaxCoinbaseScriptLen : Nat := 100

/-- `CountSigOps`: the imprecise count of every input and output script, summed in an
`int`. -/
def CountSigOps (lib : Lib) (tx : MsgTx) (scriptFlags : ScriptFlags) : Int64 :=
  let totalSigOps := tx.txIn.foldl
    (fun total txIn => total + lib.getSigOpCount txIn.signatureScript scriptFlags) 0
  tx.txOut.foldl (fun total txOut => total + lib.getSigOpCount txOut.pkScript scriptFlags)
    totalSigOps

/-- The output loop of `CheckTransactionSanity`, from the running total `totalSatoshi`. -/
def checkOutputValues (maxSatoshi : Int64) (totalSatoshi : Int64) :
    List TxOut → Except Fault Unit
  | [] => pure ()
  | txOut :: rest =>
    let satoshi := txOut.value
    if satoshi < 0 then
      throw (ruleError .errBadTxOutValue s!"transaction output has negative value of {satoshi}")
    else if satoshi > maxSatoshi then
      throw (ruleError .errBadTxOutValue (s!"transaction output value of {satoshi} is " ++
        s!"higher than max allowed value of {maxSatoshi}"))
    else
      let totalSatoshi := totalSatoshi + satoshi
      if totalSatoshi < 0 then
        throw (ruleError .errBadTxOutValue ("total value of all transaction " ++
          s!"outputs exceeds max allowed value of {maxSatoshi}"))
      else if totalSatoshi > maxSatoshi then
        throw (ruleError .errBadTxOutValue ("total value of all transaction " ++
          s!"outputs is {totalSatoshi} which is higher than max allowed value of {maxSatoshi}"))
      else checkOutputValues maxSatoshi totalSatoshi rest

/-- The duplicate-input loop of `CheckTransactionSanity`, with the outpoints seen so far. -/
def checkDuplicateInputs (existingTxOut : List OutPoint) : List TxIn → Except Fault Unit
  | [] => pure ()
  | txIn :: rest =>
    if txIn.previousOutPoint ∈ existingTxOut then
      throw (ruleError .errDuplicateTxInputs "transaction contains duplicate inputs")
    else checkDuplicateInputs (txIn.previousOutPoint :: existingTxOut) rest

/-- The null-outpoint loop of `CheckTransactionSanity`, for a transaction that is not a
coinbase. -/
def checkNullInputs : List TxIn → Except Fault Unit
  | [] => pure ()
  | txIn :: rest =>
    if isNullOutpoint txIn.previousOutPoint then
      throw (ruleError .errBadTxInput
        "transaction input refers to previous output that is null")
    else checkNullInputs rest

/-- The last check of `CheckTransactionSanity`: a coinbase's script length, or the inputs of
any other transaction. -/
def checkCoinbaseScript (lib : Lib) (tx : MsgTx) : Except Fault Unit := do
  if ← IsCoinBase lib tx then
    let txIn ← index tx.txIn 0
    let slen := txIn.signatureScript.length
    if slen < MinCoinbaseScriptLen ∨ slen > MaxCoinbaseScriptLen then
      throw (ruleError .errBadCoinbaseScriptLen (s!"coinbase transaction script length " ++
        s!"of {slen} is out of range (min: {MinCoinbaseScriptLen}, max: " ++
        s!"{MaxCoinbaseScriptLen})"))
    else pure ()
  else checkNullInputs tx.txIn

/-- `CheckTransactionSanity`. -/
def CheckTransactionSanity (lib : Lib) (tx : MsgTx) (magneticAnomalyActive : Bool)
    (scriptFlags : ScriptFlags) : Except Fault Unit :=
  if tx.txIn.length = 0 then throw (ruleError .errNoTxInputs "transaction has no inputs")
  else if tx.txOut.length = 0 then
    throw (ruleError .errNoTxOutputs "transaction has no outputs")
  else
    let serializedTxSize := lib.serializeSize tx
    if serializedTxSize > MaxTransactionSize then
      throw (ruleError .errTxTooBig (s!"serialized transaction is too big - got " ++
        s!"{serializedTxSize}, max {MaxTransactionSize}"))
    else if magneticAnomalyActive ∧ serializedTxSize < MinTransactionSize then
      throw (ruleError .errTxTooSmall (s!"serialized transaction is too small - got " ++
        s!"{serializedTxSize}, min {MinTransactionSize}"))
    else
      let sigOps := CountSigOps lib tx scriptFlags
      if sigOps.val > MaxTransactionSigOps then
        throw (ruleError .errTxTooManySigOps (s!"transaction has too many sigops - got " ++
          s!"{sigOps}, max {MaxTransactionSigOps}"))
      else do
        checkOutputValues lib.maxSatoshi 0 tx.txOut
        checkDuplicateInputs [] tx.txIn
        checkCoinbaseScript lib tx

/-! ### Only rule errors -/

theorem checkOutputValues_ruleOnly (m t : Int64) (outs : List TxOut) :
    RuleOnly (checkOutputValues m t outs) := by
  induction outs generalizing t with
  | nil => exact RuleOnly.pure ()
  | cons o rest ih =>
    simp only [checkOutputValues]
    repeat' apply RuleOnly.ite <;> intro
    all_goals first | exact RuleOnly.rule _ _ | exact ih _

theorem checkDuplicateInputs_ruleOnly (seen : List OutPoint) (ins : List TxIn) :
    RuleOnly (checkDuplicateInputs seen ins) := by
  induction ins generalizing seen with
  | nil => exact RuleOnly.pure ()
  | cons i rest ih => exact RuleOnly.ite (fun _ => RuleOnly.rule _ _) fun _ => ih _

theorem checkNullInputs_ruleOnly (ins : List TxIn) : RuleOnly (checkNullInputs ins) := by
  induction ins with
  | nil => exact RuleOnly.pure ()
  | cons i rest ih => exact RuleOnly.ite (fun _ => RuleOnly.rule _ _) fun _ => ih

theorem checkCoinbaseScript_ruleOnly (lib : Lib) {tx : MsgTx} (h : tx.txIn ≠ []) :
    RuleOnly (checkCoinbaseScript lib tx) := by
  obtain ⟨c, hc⟩ := @coinBaseAt_ok lib.mainNetEntangleHeight _ h
  obtain ⟨i, is, hi⟩ := List.exists_cons_of_ne_nil h
  simp only [checkCoinbaseScript, IsCoinBase, IsCoinBaseTx, hc, bind_ok]
  cases c
  · exact checkNullInputs_ruleOnly _
  · simp only [if_true, hi, index, List.getElem?_cons_zero, bind_ok]
    exact RuleOnly.ite (fun _ => RuleOnly.rule _ _) fun _ => RuleOnly.pure ()

theorem CheckTransactionSanity_ruleOnly (lib : Lib) (tx : MsgTx) (ma : Bool)
    (flags : ScriptFlags) : RuleOnly (CheckTransactionSanity lib tx ma flags) := by
  unfold CheckTransactionSanity
  refine RuleOnly.ite (fun _ => RuleOnly.rule _ _) fun hin => ?_
  have hne : tx.txIn ≠ [] := fun h => hin (by simp [h])
  repeat' apply RuleOnly.ite <;> intro
  all_goals first
    | exact RuleOnly.rule _ _
    | exact RuleOnly.bind (checkOutputValues_ruleOnly _ _ _) fun _ _ =>
        RuleOnly.bind (checkDuplicateInputs_ruleOnly _ _) fun _ _ =>
          checkCoinbaseScript_ruleOnly lib hne

/-! ### The codes of the rule errors -/

/-- The codes of the rule errors `CheckTransactionSanity` can return. -/
def txSanityCodes : List ErrorCode :=
  [.errNoTxInputs, .errNoTxOutputs, .errTxTooBig, .errTxTooSmall, .errTxTooManySigOps,
    .errBadTxOutValue, .errDuplicateTxInputs, .errBadCoinbaseScriptLen, .errBadTxInput]

theorem checkOutputValues_codes (m t : Int64) (outs : List TxOut) :
    RuleCodes [.errBadTxOutValue] (checkOutputValues m t outs) := by
  induction outs generalizing t with
  | nil => exact RuleCodes.pure ()
  | cons o rest ih =>
    simp only [checkOutputValues]
    repeat' apply RuleCodes.ite <;> intro
    all_goals first | exact RuleCodes.rule (List.mem_singleton_self _) _ | exact ih _

theorem checkDuplicateInputs_codes (seen : List OutPoint) (ins : List TxIn) :
    RuleCodes [.errDuplicateTxInputs] (checkDuplicateInputs seen ins) := by
  induction ins generalizing seen with
  | nil => exact RuleCodes.pure ()
  | cons i rest ih =>
    exact RuleCodes.ite (fun _ => RuleCodes.rule (List.mem_singleton_self _) _) fun _ => ih _

theorem checkNullInputs_codes (ins : List TxIn) :
    RuleCodes [.errBadTxInput] (checkNullInputs ins) := by
  induction ins with
  | nil => exact RuleCodes.pure ()
  | cons i rest ih =>
    exact RuleCodes.ite (fun _ => RuleCodes.rule (List.mem_singleton_self _) _) fun _ => ih

theorem checkCoinbaseScript_codes (lib : Lib) (tx : MsgTx) :
    RuleCodes [.errBadCoinbaseScriptLen, .errBadTxInput] (checkCoinbaseScript lib tx) := by
  refine RuleCodes.bind (coinBaseAt_codes _ _ _) fun isCoinBase _ => ?_
  cases isCoinBase
  · exact (checkNullInputs_codes _).mono (by simp)
  · exact RuleCodes.bind (RuleCodes.index _ _) fun _ _ =>
      RuleCodes.ite (fun _ => RuleCodes.rule (by simp) _) fun _ => RuleCodes.pure ()

theorem CheckTransactionSanity_codes (lib : Lib) (tx : MsgTx) (ma : Bool) (flags : ScriptFlags) :
    RuleCodes txSanityCodes (CheckTransactionSanity lib tx ma flags) := by
  unfold CheckTransactionSanity
  repeat' apply RuleCodes.ite <;> intro
  all_goals first
    | exact RuleCodes.rule (by decide) _
    | exact RuleCodes.bind ((checkOutputValues_codes _ _ _).mono (by decide))
        fun _ _ => RuleCodes.bind ((checkDuplicateInputs_codes _ _).mono (by decide))
          fun _ _ => (checkCoinbaseScript_codes lib tx).mono (by decide)

/-! ### The output values -/

/-- The exact sum of the output values, in unbounded integers. -/
def outputValueSum (outs : List TxOut) : Int := (outs.map fun o => o.value.val).sum

@[simp] theorem outputValueSum_nil : outputValueSum [] = 0 := rfl

@[simp] theorem outputValueSum_cons (o : TxOut) (outs : List TxOut) :
    outputValueSum (o :: outs) = o.value.val + outputValueSum outs := by
  simp [outputValueSum]

theorem outputValueSum_nonneg {outs : List TxOut} (h : ∀ o ∈ outs, 0 ≤ o.value.val) :
    0 ≤ outputValueSum outs := by
  induction outs with
  | nil => simp
  | cons o rest ih =>
    simp only [List.forall_mem_cons] at h
    simp only [outputValueSum_cons]
    have := ih h.2
    omega

theorem checkOutputValues_eq_ok_iff {m t : Int64} (h0 : 0 ≤ t.val) (hm : t.val ≤ m.val)
    (outs : List TxOut) :
    checkOutputValues m t outs = .ok () ↔
      (∀ o ∈ outs, 0 ≤ o.value.val ∧ o.value.val ≤ m.val) ∧ t.val + outputValueSum outs ≤ m.val := by
  induction outs generalizing t with
  | nil => simp [checkOutputValues, hm, pure, Except.pure]
  | cons o rest ih =>
    have hmax := m.val_hi
    simp only [checkOutputValues, ite_throw_eq_ok, gt_iff_lt, Signed.lt_iff, Signed.val_zero,
      not_lt, List.forall_mem_cons, outputValueSum_cons]
    by_cases ho : 0 ≤ o.value.val ∧ o.value.val ≤ m.val
    · have hrest : (∀ x ∈ rest, 0 ≤ x.value.val ∧ x.value.val ≤ m.val) →
          0 ≤ outputValueSum rest := fun hall =>
        outputValueSum_nonneg fun x hx => (hall x hx).1
      rcases Signed.val_add_of_nonneg h0 ho.1 with hex | ⟨hneg, hbig⟩
      · by_cases ht : t.val + o.value.val ≤ m.val
        · rw [@ih (t + o.value) (by omega) (by omega), hex]
          constructor
          · rintro ⟨-, -, -, -, hall, hsum⟩; exact ⟨⟨ho, hall⟩, by omega⟩
          · rintro ⟨⟨-, hall⟩, hsum⟩; exact ⟨ho.1, ho.2, by omega, by omega, hall, by omega⟩
        · refine iff_of_false (by omega) fun ⟨⟨_, hall⟩, hsum⟩ => ?_
          have := hrest hall
          omega
      · refine iff_of_false (by omega) fun ⟨⟨_, hall⟩, hsum⟩ => ?_
        have := hrest hall
        omega
    · exact iff_of_false (fun h => ho ⟨h.1, h.2.1⟩) fun h => ho h.1.1

theorem checkOutputValues_zero_eq_ok_iff {m : Int64} {outs : List TxOut} (hout : outs ≠ []) :
    checkOutputValues m 0 outs = .ok () ↔
      (∀ o ∈ outs, 0 ≤ o.value.val ∧ o.value.val ≤ m.val) ∧ outputValueSum outs ≤ m.val := by
  by_cases hm : 0 ≤ m.val
  · simpa [Signed.val_zero] using checkOutputValues_eq_ok_iff (le_of_eq Signed.val_zero.symm)
      (by rw [Signed.val_zero]; exact hm) outs
  · obtain ⟨o, rest, rfl⟩ := List.exists_cons_of_ne_nil hout
    refine iff_of_false ?_ fun ⟨h, _⟩ => by have := h o (List.mem_cons_self _ _); omega
    simp only [checkOutputValues, ite_throw_eq_ok, gt_iff_lt, Signed.lt_iff, Signed.val_zero]
    omega

/-- A transaction with inputs and outputs that passes the size and sigop tests fails with
`ErrBadTxOutValue` exactly when an output lies outside `[0, MaxSatoshi]` or the exact sum of the
outputs exceeds `MaxSatoshi`. -/
theorem CheckTransactionSanity_bad_out_value_iff (lib : Lib) (tx : MsgTx) (ma : Bool)
    (flags : ScriptFlags) (hin : tx.txIn ≠ []) (hout : tx.txOut ≠ [])
    (hsize : lib.serializeSize tx ≤ MaxTransactionSize)
    (hsmall : ma = true → MinTransactionSize ≤ lib.serializeSize tx)
    (hsigops : (CountSigOps lib tx flags).val ≤ MaxTransactionSigOps) :
    (∃ d, CheckTransactionSanity lib tx ma flags = .error (ruleError .errBadTxOutValue d)) ↔
      (∃ o ∈ tx.txOut, o.value.val < 0 ∨ lib.maxSatoshi.val < o.value.val) ∨
        lib.maxSatoshi.val < outputValueSum tx.txOut := by
  have heq : CheckTransactionSanity lib tx ma flags =
      (checkOutputValues lib.maxSatoshi 0 tx.txOut >>= fun _ =>
        checkDuplicateInputs [] tx.txIn >>= fun _ => checkCoinbaseScript lib tx) := by
    have : ¬ (ma = true ∧ lib.serializeSize tx < MinTransactionSize) := fun h => by
      have := hsmall h.1; omega
    simp [CheckTransactionSanity, List.length_eq_zero, hin, hout, not_lt.mpr hsize, this,
      not_lt.mpr hsigops]
  have hrest : RuleCodes [.errDuplicateTxInputs, .errBadCoinbaseScriptLen, .errBadTxInput]
      (checkDuplicateInputs [] tx.txIn >>= fun _ => checkCoinbaseScript lib tx) :=
    RuleCodes.bind ((checkDuplicateInputs_codes _ _).mono (by simp)) fun _ _ =>
      (checkCoinbaseScript_codes lib tx).mono (by simp)
  have hok := @checkOutputValues_zero_eq_ok_iff lib.maxSatoshi _ hout
  rw [heq]
  constructor
  · rintro ⟨d, hd⟩
    by_contra hne
    push_neg at hne
    rw [hok.mpr ⟨fun o ho => hne.1 o ho, hne.2⟩, bind_ok] at hd
    exact hrest.ne_rule (by decide) d hd
  · intro hbad
    cases hc : checkOutputValues lib.maxSatoshi 0 tx.txOut with
    | ok u =>
      obtain ⟨hall, hsum⟩ := hok.mp hc
      rcases hbad with ⟨o, ho, hlt⟩ | hlt
      · have := hall o ho; omega
      · omega
    | error e =>
      have hrule := checkOutputValues_ruleOnly lib.maxSatoshi 0 tx.txOut e hc
      cases e with
      | rule c d =>
        obtain rfl : c = .errBadTxOutValue := by
          simpa using checkOutputValues_codes lib.maxSatoshi 0 tx.txOut c d hc
        exact ⟨d, rfl⟩
      | error _ | panic => cases hrule

theorem CheckTransactionSanity_ok {lib : Lib} {tx : MsgTx} {ma : Bool} {flags : ScriptFlags}
    (h : CheckTransactionSanity lib tx ma flags = .ok ()) :
    tx.txIn ≠ [] ∧ tx.txOut ≠ [] ∧
      (∀ o ∈ tx.txOut, 0 ≤ o.value.val ∧ o.value.val ≤ lib.maxSatoshi.val) ∧
      outputValueSum tx.txOut ≤ lib.maxSatoshi.val := by
  simp only [CheckTransactionSanity, ite_throw_eq_ok, bind_eq_ok, List.length_eq_zero] at h
  obtain ⟨hin, hout, -, -, -, _, hov, -⟩ := h
  exact ⟨hin, hout, (checkOutputValues_zero_eq_ok_iff hout).mp hov⟩

def overpayTx : MsgTx := ⟨[⟨⟨⟨5⟩, 0⟩, [], 0⟩], [⟨2100000000000000, []⟩, ⟨2100000000000000, []⟩], 0⟩

theorem CheckTransactionSanity_bad_out_value_iff_overpay :
    ∃ d, CheckTransactionSanity Lib.sample overpayTx false [] =
      .error (ruleError .errBadTxOutValue d) :=
  (CheckTransactionSanity_bad_out_value_iff Lib.sample overpayTx false [] (by decide) (by decide)
    (by decide) (by decide) (by decide)).mpr (.inr (by decide))

/-! ### What `CheckTransactionSanity` accepts

Each loop of the check accepts exactly when its rule holds, so the check as a whole returns `nil`
exactly on the transactions that satisfy `SaneTx`, the rules in the order the code tests them. -/

theorem checkDuplicateInputs_eq_ok_iff (seen : List OutPoint) (ins : List TxIn) :
    checkDuplicateInputs seen ins = .ok () ↔
      (ins.map (·.previousOutPoint)).Nodup ∧ ∀ txIn ∈ ins, txIn.previousOutPoint ∉ seen := by
  induction ins generalizing seen with
  | nil => simp [checkDuplicateInputs, pure, Except.pure]
  | cons txIn rest ih =>
    simp only [checkDuplicateInputs, ite_throw_eq_ok, ih, List.map_cons, List.nodup_cons,
      List.mem_map, List.mem_cons, not_or, not_exists, not_and, forall_eq_or_imp]
    constructor
    · rintro ⟨hs, hnd, hall⟩
      exact ⟨⟨fun t ht => (hall t ht).1, hnd⟩, hs, fun t ht => (hall t ht).2⟩
    · rintro ⟨⟨hne, hnd⟩, hs, hall⟩
      exact ⟨hs, hnd, fun t ht => ⟨hne t ht, hall t ht⟩⟩

theorem checkNullInputs_eq_ok_iff (ins : List TxIn) :
    checkNullInputs ins = .ok () ↔ ∀ txIn ∈ ins, isNullOutpoint txIn.previousOutPoint = false := by
  induction ins with
  | nil => simp [checkNullInputs, pure, Except.pure]
  | cons txIn rest ih => simp [checkNullInputs, ite_throw_eq_ok, ih]

theorem checkCoinbaseScript_eq_ok_iff (lib : Lib) {tx : MsgTx} (h : tx.txIn ≠ []) :
    checkCoinbaseScript lib tx = .ok () ↔
      (IsCoinBase lib tx = .ok true → ∀ txIn ∈ tx.txIn.head?,
        MinCoinbaseScriptLen ≤ txIn.signatureScript.length ∧
          txIn.signatureScript.length ≤ MaxCoinbaseScriptLen) ∧
      (IsCoinBase lib tx = .ok false →
        ∀ txIn ∈ tx.txIn, isNullOutpoint txIn.previousOutPoint = false) := by
  obtain ⟨c, hc⟩ := @coinBaseAt_ok lib.mainNetEntangleHeight _ h
  obtain ⟨i, is, hi⟩ := List.exists_cons_of_ne_nil h
  have hcb : IsCoinBase lib tx = .ok c := hc
  simp only [checkCoinbaseScript, hcb, bind_ok]
  cases c
  · simp only [Bool.false_eq_true, ↓reduceIte, checkNullInputs_eq_ok_iff, Except.ok.injEq,
      Option.mem_def, IsEmpty.forall_iff, forall_const, true_and]
  · simp only [↓reduceIte, index, hi, List.length_cons, Nat.zero_lt_succ, List.getElem?_cons_zero,
      pure, Except.pure, bind_ok, ite_throw_eq_ok, List.head?_cons, Option.mem_def,
      Option.some.injEq, forall_eq', Except.ok.injEq, Bool.true_eq_false, IsEmpty.forall_iff,
      and_true, not_lt, not_or, gt_iff_lt, true_implies]

/-- The rules of a sane transaction, one field per test of `CheckTransactionSanity`, in the
order the code makes them. -/
structure SaneTx (lib : Lib) (tx : MsgTx) (magneticAnomalyActive : Bool)
    (scriptFlags : ScriptFlags) : Prop where
  hasInputs : tx.txIn ≠ []
  hasOutputs : tx.txOut ≠ []
  notTooBig : lib.serializeSize tx ≤ MaxTransactionSize
  notTooSmall : magneticAnomalyActive = true → MinTransactionSize ≤ lib.serializeSize tx
  sigOps : (CountSigOps lib tx scriptFlags).val ≤ MaxTransactionSigOps
  outputValues : ∀ o ∈ tx.txOut, 0 ≤ o.value.val ∧ o.value.val ≤ lib.maxSatoshi.val
  outputSum : outputValueSum tx.txOut ≤ lib.maxSatoshi.val
  distinctInputs : (tx.txIn.map (·.previousOutPoint)).Nodup
  coinbaseScript : IsCoinBase lib tx = .ok true → ∀ txIn ∈ tx.txIn.head?,
    MinCoinbaseScriptLen ≤ txIn.signatureScript.length ∧
      txIn.signatureScript.length ≤ MaxCoinbaseScriptLen
  nonNullInputs : IsCoinBase lib tx = .ok false →
    ∀ txIn ∈ tx.txIn, isNullOutpoint txIn.previousOutPoint = false

/-- `CheckTransactionSanity` returns `nil` exactly on the transactions that satisfy `SaneTx`:
the int64 total of the outputs never lets an over-limit sum through, and the map of seen
outpoints rejects exactly the transactions that spend one outpoint twice. -/
theorem CheckTransactionSanity_eq_ok_iff (lib : Lib) (tx : MsgTx) (ma : Bool)
    (flags : ScriptFlags) :
    CheckTransactionSanity lib tx ma flags = .ok () ↔ SaneTx lib tx ma flags := by
  by_cases hin : tx.txIn = []
  · exact iff_of_false (by simp [CheckTransactionSanity, hin, throw, throwThe,
      MonadExceptOf.throw]) fun h => h.hasInputs hin
  by_cases hout : tx.txOut = []
  · exact iff_of_false (by simp [CheckTransactionSanity, hin, hout, throw, throwThe,
      MonadExceptOf.throw]) fun h => h.hasOutputs hout
  simp only [CheckTransactionSanity, List.length_eq_zero, hin, hout, if_false, ite_throw_eq_ok,
    bind_unit_eq_ok, checkOutputValues_zero_eq_ok_iff hout, checkDuplicateInputs_eq_ok_iff,
    checkCoinbaseScript_eq_ok_iff lib hin, List.not_mem_nil, not_false_eq_true, implies_true,
    and_true, not_lt, gt_iff_lt, not_and]
  constructor
  · rintro ⟨hbig, hsmall, hsig, ⟨hvals, hsum⟩, hnd, hcb, hnull⟩
    exact ⟨hin, hout, hbig, hsmall, hsig, hvals, hsum, hnd, hcb, hnull⟩
  · rintro ⟨-, -, hbig, hsmall, hsig, hvals, hsum, hnd, hcb, hnull⟩
    exact ⟨hbig, hsmall, hsig, ⟨hvals, hsum⟩, hnd, hcb, hnull⟩

end Classzz
