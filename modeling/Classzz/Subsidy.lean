import Classzz.View
import Classzz.Entangle

/-! The pool accounting after the entangle height: `checkBlockSubsidy` and `summayOfTxsAndCheck`
read the pools and the reserve from the previous block's coinbase and credit the block's entangle
items (`handleSummayEntangle`). `PreCalcEntangleAmount` and `KeepedAmount.Add` are modelled from
the spec. -/

namespace Classzz

/-- Modelled from the spec: `KeepedAmount.Add(item)` (§3, "running per-foreign-chain
reserves"): the amount joins the reserve of its chain; a chain without one is appended and
counted. -/
def KeepedAmount.Add (k : KeepedAmount) (item : KeepedItem) : KeepedAmount :=
  if k.items.any (·.exTxType = item.exTxType) then
    { k with items := k.items.map fun i =>
        if i.exTxType = item.exTxType then { i with amount := i.amount + item.amount } else i }
  else ⟨k.count + 1, k.items ++ [item]⟩

/-- Modelled from the spec: the reserve that `keep` holds for the chain `t`. -/
def KeepedAmount.GetValue (k : KeepedAmount) (t : ExpandedTxType) : Int :=
  ((k.items.filter (·.exTxType = t)).map (·.amount)).sum

/-- Modelled from the spec: `cross.PreCalcEntangleAmount(item, keep)` (§4.5, "given the
current `KeepedAmount`, compute the credit for `item.value` using the appropriate curve, and
update `keep`"). The credit is `toDoge` or `toLtc` of the chain's reserve and the deposit; an
item of another chain keeps its value. The deposit then joins the reserve. -/
def PreCalcEntangleAmount (lib : Lib) (item : EntangleItem) (keep : KeepedAmount) :
    EntangleItem × KeepedAmount :=
  let reserve := keep.GetValue item.eType
  let credit :=
    if item.eType = expandedTxEntangleDoge then lib.toDoge reserve item.value
    else if item.eType = expandedTxEntangleLtc then lib.toLtc reserve item.value
    else item.value
  (⟨item.eType, credit⟩, keep.Add ⟨item.eType, item.value⟩)

/-- A `KeepedInfoSummay`: what `summayOfTxsAndCheck` finds in a block and its predecessor. -/
structure KeepedInfoSummay where
  totalIn : Int64
  totalOut : Int64
  keepedAmountInBlock : KeepedAmount
  entangleAmount : Int64
  lastpool1Amount : Int64
  lastpool2Amount : Int64
  pool1Amount : Int64
  pool2Amount : Int64

/-- `block.Tx(txNum)`: the transaction, or an error past the end. -/
def Block.Tx (block : Block) (txNum : Nat) : Except Fault MsgTx :=
  match block.transactions[txNum]? with
  | some tx => pure tx
  | none =>
    let max : Int := block.transactions.length - 1
    throw (.error s!"transaction index {txNum} is out of range - max {max}")

/-- `getKeepedAmountFormPreBlock`: the reserve in out[3] of the block's coinbase, empty when
the coinbase has fewer than four outputs. -/
def getKeepedAmountFormPreBlock (lib : Lib) (block : Block) : Except Fault KeepedAmount :=
  let keepInfo : KeepedAmount := ⟨0, []⟩
  match block.Tx 0 with
  | .error _ => pure keepInfo
  | .ok coinbaseTx =>
    if coinbaseTx.txOut.length ≥ 4 then do
      let out ← index coinbaseTx.txOut 3
      lib.parseKeepedAmount out.pkScript
    else pure keepInfo

/-- `getPoolAmountFromPreBlock`: the pools out[1] and out[2] of the block's coinbase, read
without a bound check. -/
def getPoolAmountFromPreBlock (block : Block) (summay : KeepedInfoSummay) :
    Except Fault KeepedInfoSummay :=
  match block.Tx 0 with
  | .error err => throw err
  | .ok coinbaseTx => do
    let out1 ← index coinbaseTx.txOut 1
    let out2 ← index coinbaseTx.txOut 2
    pure { summay with lastpool1Amount := out1.value, lastpool2Amount := out2.value }

/-- `handleSummayEntangle`: each item, in the order Go picks, joins the block's reserve and is
credited against the running reserve `keepedInfo`. -/
def handleSummayEntangle (lib : Lib) (summay : KeepedInfoSummay) (keepedInfo : KeepedAmount)
    (infos : List (UInt32 × EntangleTxInfo)) : KeepedInfoSummay × KeepedAmount :=
  (lib.mapOrder .summay infos).foldl (fun (summay, keepedInfo) (_, v) =>
    let item : EntangleItem := ⟨v.exTxType, v.amount⟩
    let summay := { summay with
      keepedAmountInBlock := summay.keepedAmountInBlock.Add ⟨item.eType, item.value⟩ }
    let (item, keepedInfo) := PreCalcEntangleAmount lib item keepedInfo
    ({ summay with entangleAmount := summay.entangleAmount + bigInt64 item.value }, keepedInfo))
    (summay, keepedInfo)

structure SummayLocals where
  summay : KeepedInfoSummay
  keepInfo : KeepedAmount
  totalIn : Int64
  totalOut : Int64
  amount1 : Int64

/-- The coinbase's outputs in `summayOfTxsAndCheck`: out[1] and out[2] are the pools, the
outputs from out[4] on add up to `amount1`, and all count in `totalOut`. -/
def summayCoinbaseOuts : Nat → SummayLocals → List TxOut → SummayLocals
  | _, s, [] => s
  | i, s, txout :: rest =>
    let amount1 := if i > 3 then s.amount1 + txout.value else s.amount1
    let summay := if i = 1 then { s.summay with pool1Amount := txout.value } else s.summay
    let summay := if i = 2 then { summay with pool2Amount := txout.value } else summay
    summayCoinbaseOuts (i + 1) { s with summay, amount1, totalOut := s.totalOut + txout.value }
      rest

/-- The inputs of a transaction other than the coinbase in `summayOfTxsAndCheck`: the amounts of
their entries, spent or not, added to `totalIn`. -/
def summayInputs (lib : Lib) (tx : MsgTx) (utxoView : UtxoViewpoint) :
    Nat → Int64 → List TxIn → Except Fault Int64
  | _, totalIn, [] => pure totalIn
  | i, totalIn, txIn :: rest =>
    let op := txIn.previousOutPoint
    let txHash := lib.txHash tx
    match utxoView.LookupEntry op with
    | none => throw (ruleError .errMissingTxOut (s!"output {op} referenced from " ++
        s!"transaction {txHash}:{i} does not valid"))
    | some utxo => summayInputs lib tx utxoView (i + 1) (totalIn + utxo.amount) rest

/-- The transaction loop of `summayOfTxsAndCheck`. -/
def summayTxs (lib : Lib) (utxoView : UtxoViewpoint) :
    Nat → SummayLocals → List MsgTx → Except Fault SummayLocals
  | _, s, [] => pure s
  | txIndex, s, tx :: rest =>
    if txIndex = 0 then summayTxs lib utxoView (txIndex + 1) (summayCoinbaseOuts 0 s tx.txOut) rest
    else do
      let (summay, keepInfo) := match IsEntangleTx lib tx with
        | some einfos => handleSummayEntangle lib s.summay s.keepInfo einfos
        | none => (s.summay, s.keepInfo)
      let totalOut := tx.txOut.foldl (fun total txout => total + txout.value) s.totalOut
      let totalIn ← summayInputs lib tx utxoView 0 s.totalIn tx.txIn
      summayTxs lib utxoView (txIndex + 1) { s with summay, keepInfo, totalOut, totalIn } rest

def KeepedInfoSummay.empty : KeepedInfoSummay := ⟨0, 0, ⟨0, []⟩, 0, 0, 0, 0, 0⟩

/-- `summayOfTxsAndCheck`. The coinbase is credited with the previous block's pools and the
three parts of the subsidy, whatever its own inputs spend. -/
def summayOfTxsAndCheck (lib : Lib) (preblock block : Block) (utxoView : UtxoViewpoint)
    (subsidy pool1Amount pool2Amount : Int64) : Except Fault KeepedInfoSummay := do
  let keepInfo ← getKeepedAmountFormPreBlock lib preblock
  let summay ← getPoolAmountFromPreBlock preblock KeepedInfoSummay.empty
  let totalIn := summay.lastpool1Amount + summay.lastpool2Amount + pool1Amount + pool2Amount +
    subsidy
  let s ← summayTxs lib utxoView 0 ⟨summay, keepInfo, totalIn, 0, 0⟩ block.transactions
  let amount1 := s.amount1
  let entangleAmount := s.summay.entangleAmount
  if amount1 ≠ entangleAmount then
    throw (.error s!"not match the entangle amount.[{amount1},{entangleAmount}]")
  else pure { s.summay with totalIn := s.totalIn, totalOut := s.totalOut }

/-- The three parts `originIncome1`, `originIncome2`, `originIncome3` of a subsidy. -/
def originIncomes (amountSubsidy : Int64) : Int64 × Int64 × Int64 :=
  let originIncome1 := amountSubsidy * 19 / 100
  let originIncome2 := amountSubsidy / 100
  (originIncome1, originIncome2, amountSubsidy - originIncome1 - originIncome2)

/-- `checkBlockSubsidy`. The catch-up at the entangle height comes after the return for every
height up to it, so it never runs. -/
def checkBlockSubsidy (lib : Lib) (block preBlock : Block) (txHeight : Int32)
    (utxoView : UtxoViewpoint) (amountSubsidy : Int64) (chainParams : Params) :
    Except Fault Unit :=
  if txHeight ≤ chainParams.entangleHeight then pure ()
  else do
    let (originIncome1, originIncome2, originIncome3) := originIncomes amountSubsidy
    let catchUp : Int64 := Signed.ofInt (chainParams.entangleHeight - 1).val
    let (originIncome1, originIncome2) :=
      if txHeight = chainParams.entangleHeight then
        (originIncome1 * catchUp, originIncome2 * catchUp)
      else (originIncome1, originIncome2)
    let summay ← summayOfTxsAndCheck lib preBlock block utxoView originIncome3 originIncome1
      originIncome2
    let expPool1Amount := summay.lastpool1Amount + originIncome1 - summay.entangleAmount
    let pool1Amount := summay.pool1Amount
    let pool2Amount := summay.pool2Amount
    let expPool2Amount := originIncome2 + summay.lastpool2Amount
    let totalOut := summay.totalOut
    let totalIn := summay.totalIn
    if pool1Amount ≠ expPool1Amount then
      throw (.error (s!"BlockSubsidy:the pool1 address's reward was wrong[{pool1Amount}," ++
        s!"expected:{expPool1Amount}] height:{txHeight} "))
    else if expPool2Amount ≠ pool2Amount then
      throw (.error (s!"BlockSubsidy:the pool2 address's reward was wrong[{pool2Amount}," ++
        s!"expected:{expPool2Amount}] height:{txHeight} "))
    else if totalOut > totalIn then
      throw (.error (s!"BlockSubsidy:wrong,the totalOut > totalIn,[totalOut:{totalOut}," ++
        s!"totalIn:{totalIn}] height:{txHeight}"))
    else pure ()

/-! ### What the pool check establishes -/

section Subsidy

variable {lib : Lib} {block preBlock : Block} {txHeight : Int32} {utxoView : UtxoViewpoint}
  {amountSubsidy : Int64} {chainParams : Params}

/-- Up to the entangle height nothing is checked, the catch-up included. -/
theorem checkBlockSubsidy_of_le (h : txHeight ≤ chainParams.entangleHeight) :
    checkBlockSubsidy lib block preBlock txHeight utxoView amountSubsidy chainParams = .ok () :=
  if_pos h

/-- The pool reads fail when the previous block's coinbase has fewer than three outputs: the
check of every block after the entangle height then panics, whatever the block. -/
theorem summayOfTxsAndCheck_eq_panic {coinbaseTx : MsgTx} {txs : List MsgTx}
    {subsidy pool1Amount pool2Amount : Int64}
    (hpre : preBlock.transactions = coinbaseTx :: txs) (hout : coinbaseTx.txOut.length < 3) :
    summayOfTxsAndCheck lib preBlock block utxoView subsidy pool1Amount pool2Amount =
      .error .panic := by
  have htx : preBlock.Tx 0 = .ok coinbaseTx := by simp [Block.Tx, hpre, pure, Except.pure]
  have hkeep : getKeepedAmountFormPreBlock lib preBlock = .ok ⟨0, []⟩ := by
    simp [getKeepedAmountFormPreBlock, htx, show ¬ 4 ≤ coinbaseTx.txOut.length by omega,
      pure, Except.pure]
  have hpool : getPoolAmountFromPreBlock preBlock KeepedInfoSummay.empty = .error .panic := by
    simp only [getPoolAmountFromPreBlock, htx]
    by_cases h1 : coinbaseTx.txOut.length ≤ 1
    · rw [index_of_le h1]; rfl
    · rw [index_of_lt (by omega), bind_ok, index_of_le (by omega)]; rfl
  simp only [summayOfTxsAndCheck, hkeep, hpool, bind_ok]
  rfl

theorem checkBlockSubsidy_eq_panic {coinbaseTx : MsgTx} {txs : List MsgTx}
    (hh : chainParams.entangleHeight < txHeight)
    (hpre : preBlock.transactions = coinbaseTx :: txs) (hout : coinbaseTx.txOut.length < 3) :
    checkBlockSubsidy lib block preBlock txHeight utxoView amountSubsidy chainParams =
      .error .panic := by
  simp only [checkBlockSubsidy, if_neg (Signed.not_le_of_lt hh), if_neg (Signed.ne_of_lt hh),
    summayOfTxsAndCheck_eq_panic hpre hout]
  rfl

/-- The summary never reads the coinbase's inputs: the coinbase is credited with the previous
block's pools, whatever its inputs spend. -/
theorem summayOfTxsAndCheck_coinbase_txIn {coinbaseTx : MsgTx} {txs : List MsgTx}
    {subsidy pool1Amount pool2Amount : Int64} (txIn : List TxIn)
    (hb : block.transactions = coinbaseTx :: txs) :
    summayOfTxsAndCheck lib preBlock block utxoView subsidy pool1Amount pool2Amount =
      summayOfTxsAndCheck lib preBlock
        { block with msgBlock.transactions := { coinbaseTx with txIn } :: txs } utxoView
        subsidy pool1Amount pool2Amount := by
  simp only [summayOfTxsAndCheck, Block.transactions] at hb ⊢
  simp only [hb, summayTxs, if_true]

/-- Nor does the pool check: its verdict is the same whatever the coinbase's inputs spend. -/
theorem checkBlockSubsidy_coinbase_txIn {coinbaseTx : MsgTx} {txs : List MsgTx} (txIn : List TxIn)
    (hb : block.transactions = coinbaseTx :: txs) :
    checkBlockSubsidy lib block preBlock txHeight utxoView amountSubsidy chainParams =
      checkBlockSubsidy lib { block with msgBlock.transactions := { coinbaseTx with txIn } :: txs }
        preBlock txHeight utxoView amountSubsidy chainParams := by
  simp only [checkBlockSubsidy, summayOfTxsAndCheck_coinbase_txIn txIn hb]

end Subsidy

/-! ### The reserves of a block

Go visits the entangle items of a transaction in map order, which `lib.mapOrder .summay` stands for. The
credits of `handleSummayEntangle` read the running reserve, so their total can depend on that
order; the reserves cannot. Per chain, a `KeepedAmount` is seen through `KeepedAmount.view`:
the number of its entries for the chain and their total. `Add` changes that view by
`reserveDeposit` alone (`KeepedAmount.view_Add`), a run of `Add`s by `reserveDeposits` of the
run's amounts (`KeepedAmount.view_foldl_Add`), and `reserveDeposits` depends only on their sum.
So the summary of a block holds, per chain, one entry with the sum of the block's deposits
(`summayOfTxsAndCheck_keepedAmountInBlock`). -/

/-- The entries `keep` holds for the chain `t`: how many, and their total `GetValue t`. -/
def KeepedAmount.view (k : KeepedAmount) (t : ExpandedTxType) : Nat × Int :=
  ((k.items.filter (·.exTxType = t)).length, k.GetValue t)

/-- A deposit of `amount` seen through the view of its chain: it joins every entry of the
chain, or starts one. -/
def reserveDeposit (v : Nat × Int) (amount : Int) : Nat × Int :=
  (max v.1 1, v.2 + max v.1 1 * amount)

/-- Deposits of `amounts`, in any order, seen through the view of their chain. -/
def reserveDeposits (v : Nat × Int) (amounts : List Int) : Nat × Int :=
  if amounts = [] then v else (max v.1 1, v.2 + max v.1 1 * amounts.sum)

/-- The amounts the entangle items of `txs` deposit for the chain `t`, in block order. -/
def txDeposits (lib : Lib) (t : ExpandedTxType) (txs : List MsgTx) : List Int :=
  txs.flatMap fun tx => (((IsEntangleTx lib tx).getD []).filter (·.2.exTxType = t)).map (·.2.amount)

theorem txDeposits_cons (lib : Lib) (t : ExpandedTxType) (tx : MsgTx) (rest : List MsgTx) :
    txDeposits lib t (tx :: rest) =
      (((IsEntangleTx lib tx).getD []).filter (·.2.exTxType = t)).map (·.2.amount) ++
        txDeposits lib t rest :=
  List.flatMap_cons _ _ _

@[simp] theorem reserveDeposits_nil (v : Nat × Int) : reserveDeposits v [] = v := if_pos rfl

theorem reserveDeposits_cons (v : Nat × Int) (a : Int) (as : List Int) :
    reserveDeposits (reserveDeposit v a) as = reserveDeposits v (a :: as) := by
  unfold reserveDeposits reserveDeposit
  rw [if_neg (List.cons_ne_nil a as), List.sum_cons]
  split_ifs with has
  · rw [has, List.sum_nil, add_zero]
  · dsimp only
    rw [max_eq_left (le_max_right v.1 1), mul_add, add_assoc]

theorem reserveDeposits_append (v : Nat × Int) (as bs : List Int) :
    reserveDeposits (reserveDeposits v as) bs = reserveDeposits v (as ++ bs) := by
  induction as generalizing v with
  | nil => rw [reserveDeposits_nil, List.nil_append]
  | cons a as ih => rw [← reserveDeposits_cons, ih, List.cons_append, reserveDeposits_cons]

theorem reserveDeposits_perm (v : Nat × Int) {as bs : List Int} (h : as.Perm bs) :
    reserveDeposits v as = reserveDeposits v bs := by
  simp only [reserveDeposits, h.sum_eq, ← List.length_eq_zero, h.length_eq]

theorem sum_amount_map_add (e t : ExpandedTxType) (a : Int) :
    ∀ {l : List KeepedItem}, (∀ i ∈ l, i.exTxType = t) →
      ((l.map fun i => if i.exTxType = e then { i with amount := i.amount + a } else i).map
        (·.amount)).sum = (l.map (·.amount)).sum + if e = t then l.length * a else 0
  | [], _ => by simp
  | i :: l, hl => by
    have ih := sum_amount_map_add e t a fun j hj => hl j (List.mem_cons_of_mem _ hj)
    simp only [List.map_cons, List.sum_cons, ih, hl i (List.mem_cons_self _ _), List.length_cons]
    by_cases het : e = t
    · subst het; simp only [if_true]; push_cast; ring
    · simp [het, Ne.symm het]

/-- `Add` changes the view of the deposit's chain by `reserveDeposit`, and no other. -/
theorem KeepedAmount.view_Add (k : KeepedAmount) (item : KeepedItem) (t : ExpandedTxType) :
    (k.Add item).view t =
      if item.exTxType = t then reserveDeposit (k.view t) item.amount else k.view t := by
  unfold KeepedAmount.Add
  have hmap : ∀ L : List KeepedItem, (L.map fun i => if i.exTxType = item.exTxType then
      { i with amount := i.amount + item.amount } else i).filter (·.exTxType = t) =
      (L.filter (·.exTxType = t)).map fun i => if i.exTxType = item.exTxType then
        { i with amount := i.amount + item.amount } else i := fun L => by
    rw [List.filter_map]
    exact congrArg _ (List.filter_congr fun i _ => by
      simp only [Function.comp_apply]; split_ifs <;> rfl)
  have hsum := fun L : List KeepedItem => @sum_amount_map_add item.exTxType t item.amount
    (L.filter (·.exTxType = t)) fun i hi => of_decide_eq_true (List.mem_filter.mp hi).2
  simp only [KeepedAmount.view, KeepedAmount.GetValue]
  split_ifs with hany het het
  · -- every entry of the deposit's chain grows by the deposit, and there is one
    obtain ⟨j, hj, hje⟩ := List.any_eq_true.mp hany
    have hc : 0 < (k.items.filter (·.exTxType = t)).length :=
      List.length_pos_of_mem (List.mem_filter.mpr ⟨hj, by simpa [het] using hje⟩)
    rw [hmap, List.length_map, hsum, if_pos het, reserveDeposit, max_eq_left hc]
  · rw [hmap, List.length_map, hsum, if_neg het, add_zero]
  · -- the deposit starts its chain's entry
    have hnil : k.items.filter (·.exTxType = t) = [] := List.filter_eq_nil_iff.mpr fun j hj hje =>
      hany (List.any_eq_true.mpr ⟨j, hj, het ▸ hje⟩)
    simp [List.filter_append, hnil, het, reserveDeposit]
  · simp [List.filter_append, het]

theorem KeepedAmount.view_foldl_Add {σ α : Type} (step : σ → α → σ) (get : σ → KeepedAmount)
    (item : α → KeepedItem) (hstep : ∀ s a, get (step s a) = (get s).Add (item a))
    (t : ExpandedTxType) : ∀ (L : List α) (s : σ),
    (get (L.foldl step s)).view t = reserveDeposits ((get s).view t)
      ((L.filter fun a => (item a).exTxType = t).map fun a => (item a).amount)
  | [], s => by simp [reserveDeposits]
  | a :: L, s => by
    rw [List.foldl_cons, view_foldl_Add step get item hstep t L, hstep, KeepedAmount.view_Add]
    by_cases h : (item a).exTxType = t
    · rw [if_pos h, reserveDeposits_cons, List.filter_cons_of_pos (by simpa using h),
        List.map_cons]
    · rw [if_neg h, List.filter_cons_of_neg (by simpa using h)]

/-- Whatever the map order, `handleSummayEntangle` adds the deposits of each chain to the view
of that chain, in the block's reserve and in the running one. -/
theorem handleSummayEntangle_view (lib : Lib) (summay : KeepedInfoSummay)
    (keepedInfo : KeepedAmount) (infos : List (UInt32 × EntangleTxInfo)) (t : ExpandedTxType) :
    (handleSummayEntangle lib summay keepedInfo infos).1.keepedAmountInBlock.view t =
        reserveDeposits (summay.keepedAmountInBlock.view t)
          ((infos.filter (·.2.exTxType = t)).map (·.2.amount)) ∧
      (handleSummayEntangle lib summay keepedInfo infos).2.view t =
        reserveDeposits (keepedInfo.view t) ((infos.filter (·.2.exTxType = t)).map (·.2.amount)) := by
  have hperm := ((lib.mapOrder_perm .summay infos).filter (fun p => decide (p.2.exTxType = t))).map
    (·.2.amount)
  let deposit (p : UInt32 × EntangleTxInfo) : KeepedItem := ⟨p.2.exTxType, p.2.amount⟩
  unfold handleSummayEntangle
  constructor
  · exact (KeepedAmount.view_foldl_Add _ (fun s : KeepedInfoSummay × KeepedAmount =>
      s.1.keepedAmountInBlock) deposit (fun _ _ => rfl) t _ _).trans (reserveDeposits_perm _ hperm)
  · exact (KeepedAmount.view_foldl_Add _ (fun s : KeepedInfoSummay × KeepedAmount => s.2) deposit
      (fun _ _ => rfl) t _ _).trans (reserveDeposits_perm _ hperm)

theorem summayCoinbaseOuts_keepedAmountInBlock :
    ∀ (i : Nat) (s : SummayLocals) (outs : List TxOut),
      (summayCoinbaseOuts i s outs).summay.keepedAmountInBlock = s.summay.keepedAmountInBlock
  | _, _, [] => rfl
  | i, s, txout :: rest => by
    rw [summayCoinbaseOuts, summayCoinbaseOuts_keepedAmountInBlock]
    split_ifs <;> rfl

theorem getPoolAmountFromPreBlock_keepedAmountInBlock {block : Block}
    {summay summay' : KeepedInfoSummay} (h : getPoolAmountFromPreBlock block summay = .ok summay') :
    summay'.keepedAmountInBlock = summay.keepedAmountInBlock := by
  unfold getPoolAmountFromPreBlock at h
  split at h
  · nomatch h
  · simp only [bind_eq_ok] at h
    obtain ⟨_, -, _, -, h⟩ := h
    cases h
    rfl

theorem summayTxs_view {lib : Lib} {utxoView : UtxoViewpoint} (t : ExpandedTxType) :
    ∀ {i : Nat} {s s' : SummayLocals} {txs : List MsgTx}, i ≠ 0 →
      summayTxs lib utxoView i s txs = .ok s' →
      s'.summay.keepedAmountInBlock.view t =
        reserveDeposits (s.summay.keepedAmountInBlock.view t) (txDeposits lib t txs)
  | _, s, s', [], _, h => by
    cases h
    simp [txDeposits, reserveDeposits]
  | i, s, s', tx :: rest, hi, h => by
    simp only [summayTxs, if_neg hi, bind_eq_ok] at h
    obtain ⟨totalIn, -, h⟩ := h
    rw [summayTxs_view t (Nat.succ_ne_zero i) h, txDeposits_cons, ← reserveDeposits_append]
    cases hE : IsEntangleTx lib tx with
    | none =>
      simp only [hE, Option.getD_none, List.filter_nil, List.map_nil, reserveDeposits_nil]
    | some einfos => simp only [hE, (handleSummayEntangle_view ..).1]; rfl

/-- The summary of a block holds, for each foreign chain, one reserve entry with the sum of
the deposits of the block's entangle items for that chain, or none when it has none, whatever
order Go's map iteration picks. -/
theorem summayOfTxsAndCheck_keepedAmountInBlock {lib : Lib} {preBlock block : Block}
    {utxoView : UtxoViewpoint} {subsidy pool1Amount pool2Amount : Int64}
    {summay : KeepedInfoSummay}
    (h : summayOfTxsAndCheck lib preBlock block utxoView subsidy pool1Amount pool2Amount =
      .ok summay) (t : ExpandedTxType) :
    summay.keepedAmountInBlock.view t =
      if txDeposits lib t (block.transactions.drop 1) = [] then (0, 0)
      else (1, (txDeposits lib t (block.transactions.drop 1)).sum) := by
  simp only [summayOfTxsAndCheck, bind_eq_ok, ite_throw_eq_ok] at h
  obtain ⟨keepInfo, -, summay0, hpool, s, hs, -, h⟩ := h
  cases h
  have h0 : s.summay.keepedAmountInBlock.view t =
      reserveDeposits (0, 0) (txDeposits lib t (block.transactions.drop 1)) := by
    cases htx : block.transactions with
    | nil =>
      rw [htx] at hs
      cases hs
      rw [getPoolAmountFromPreBlock_keepedAmountInBlock hpool]
      rfl
    | cons tx rest =>
      rw [htx, summayTxs, if_pos rfl] at hs
      rw [summayTxs_view t (Nat.succ_ne_zero 0) hs, summayCoinbaseOuts_keepedAmountInBlock,
        getPoolAmountFromPreBlock_keepedAmountInBlock hpool]
      rfl
  rw [h0, reserveDeposits]
  split_ifs <;> simp

def depositLib : Lib := Lib.entangling ⟨expandedTxEntangleDoge, 0, 100, 5, [7]⟩

def depositPreBlock : Block :=
  ⟨⟨⟨zeroHash, zeroHash, Time.ofUnix 0, 0, 0⟩, [⟨[], [⟨0, []⟩, ⟨0, []⟩, ⟨0, []⟩], 0⟩]⟩, 9⟩

/-- A block whose second transaction, with no inputs, deposits 5 for Doge, and whose coinbase
pays the 5 from out[4]. -/
def depositBlock : Block :=
  ⟨⟨⟨zeroHash, zeroHash, Time.ofUnix 0, 0, 0⟩,
    [⟨[], [⟨0, []⟩, ⟨0, []⟩, ⟨0, []⟩, ⟨0, []⟩, ⟨5, []⟩], 0⟩, ⟨[], [⟨0, entangleScript⟩], 0⟩]⟩, 10⟩

theorem summayOfTxsAndCheck_keepedAmountInBlock_deposit :
    ∃ summay, summayOfTxsAndCheck depositLib depositPreBlock depositBlock UtxoViewpoint.empty 0 0 0 =
        .ok summay ∧
      summay.keepedAmountInBlock.view expandedTxEntangleDoge =
        if txDeposits depositLib expandedTxEntangleDoge (depositBlock.transactions.drop 1) = [] then
          (0, 0)
        else (1, (txDeposits depositLib expandedTxEntangleDoge (depositBlock.transactions.drop 1)).sum) :=
  ⟨_, rfl, @summayOfTxsAndCheck_keepedAmountInBlock depositLib depositPreBlock depositBlock
    UtxoViewpoint.empty 0 0 0 _ rfl _⟩

example : txDeposits depositLib expandedTxEntangleDoge (depositBlock.transactions.drop 1) = [5] :=
  rfl

end Classzz
