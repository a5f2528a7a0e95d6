import Classzz.Lib

/-! The two operations of a `UtxoViewpoint` that `checkConnectBlock` calls and that are not part
of the source, modelled from the spec: `addInputUtxos` and `connectTransactions`. Spending fails
exactly on a missing, spent or repeated outpoint (`spendTxIns_ok_iff`). -/

namespace Classzz

namespace UtxoViewpoint

/-- The view without entries, `NewUtxoViewpoint()`. -/
def empty : UtxoViewpoint := ⟨fun _ => none⟩

theorem LookupEntry_insert (v : UtxoViewpoint) (op o : OutPoint) (e : UtxoEntry) :
    (v.insert op e).LookupEntry o = if o = op then some e else v.LookupEntry o := rfl

end UtxoViewpoint

/-- Every outpoint the inputs of a block refer to, in block order. -/
def blockInputs (txs : List MsgTx) : List OutPoint :=
  txs.flatMap fun tx => tx.txIn.map (·.previousOutPoint)

/-- The loop of `addInputUtxos`: an outpoint missing from the view is fetched from the cache. -/
def fetchInputUtxos (fetchUtxo : OutPoint → Except Fault (Option UtxoEntry))
    (view : UtxoViewpoint) : List OutPoint → Except Fault UtxoViewpoint
  | [] => pure view
  | op :: rest =>
    match view.LookupEntry op with
    | some _ => fetchInputUtxos fetchUtxo view rest
    | none => do
      let entry ← fetchUtxo op
      let view := match entry with
        | some e => view.insert op e
        | none => view
      fetchInputUtxos fetchUtxo view rest

/-- Modelled from the spec: `view.addInputUtxos(b.utxoCache, block)` (§4.2, "bulk-fetches
every referenced input"). -/
def addInputUtxos (fetchUtxo : OutPoint → Except Fault (Option UtxoEntry))
    (view : UtxoViewpoint) (block : Block) : Except Fault UtxoViewpoint :=
  fetchInputUtxos fetchUtxo view (blockInputs block.transactions)

/-- The entry of output `i` of a transaction of a block at `height`; outputs 1 and 2 of a
coinbase are the pool outputs (§4.7). -/
def outputEntry (height : Int32) (isCoinBase : Bool) (i : Nat) (out : TxOut) : UtxoEntry :=
  ⟨out.value, out.pkScript, height, isCoinBase, isCoinBase && (i = 1 || i = 2), false⟩

/-- The view with every output of `tx` added. -/
def addTxOuts (view : UtxoViewpoint) (txHash : Hash) (height : Int32) (isCoinBase : Bool)
    (tx : MsgTx) : UtxoViewpoint :=
  tx.txOut.enum.foldl (fun v (i, out) =>
    v.insert ⟨txHash, UInt32.ofNat i⟩ (outputEntry height isCoinBase i out)) view

/-- The outpoints a block spends: every input but the coinbase's first, which spends the null
outpoint. -/
def blockSpends (txs : List MsgTx) : List OutPoint :=
  txs.enum.flatMap fun (i, tx) =>
    (if i = 0 then tx.txIn.drop 1 else tx.txIn).map (·.previousOutPoint)

/-- Spend the outpoints in order; the second reference to an outpoint finds it spent. -/
def spendTxIns (view : UtxoViewpoint) : List OutPoint → Except Fault UtxoViewpoint
  | [] => pure view
  | op :: rest =>
    match view.LookupEntry op with
    | none => throw (ruleError .errMissingTxOut s!"output {op} referenced from block does not exist")
    | some e =>
      if e.spent then throw (ruleError .errSpentTxOut s!"output {op} has already been spent")
      else spendTxIns (view.insert op { e with spent := true }) rest

/-- Modelled from the spec: `connectTransactions(view, block, stxos, false)` (§4.2, "connect
is all-or-nothing"; "double-spends within a single block are detected as 'already spent' on
the second reference"; the caller's "Outputs-then-inputs validation"). All outputs of the
block are added first, then its inputs are spent; on an error the view is left as it was. -/
def connectTransactions (lib : Lib) (view : UtxoViewpoint) (block : Block) :
    Except Fault UtxoViewpoint :=
  let view := block.transactions.enum.foldl (fun v (i, tx) =>
    addTxOuts v (lib.txHash tx) block.height (i = 0) tx) view
  spendTxIns view (blockSpends block.transactions)

/-! ### Spending -/

section Spend

variable {view : UtxoViewpoint} {op : OutPoint} {ops : List OutPoint}

theorem spendTxIns_ok_iff :
    (∃ view', spendTxIns view ops = .ok view') ↔
      ops.Nodup ∧ ∀ o ∈ ops, ∃ e, view.LookupEntry o = some e ∧ e.spent = false := by
  induction ops generalizing view with
  | nil => simp [spendTxIns, pure, Except.pure]
  | cons o rest ih =>
    simp only [spendTxIns]
    split
    · rename_i he
      simp [throw, throwThe, MonadExceptOf.throw, he]
    · rename_i e he
      split
      · rename_i hs
        simp [throw, throwThe, MonadExceptOf.throw, he, hs]
      · rename_i hs
        rw [ih]
        simp only [List.nodup_cons, List.mem_cons, forall_eq_or_imp, he, Option.some.injEq,
          exists_eq_left', UtxoViewpoint.LookupEntry_insert]
        constructor
        · rintro ⟨hnd, hall⟩
          have hno : o ∉ rest := fun hm => by simpa using hall o hm
          exact ⟨⟨hno, hnd⟩, by simpa using hs, fun x hx => by
            simpa [show x ≠ o from fun h => hno (h ▸ hx)] using hall x hx⟩
        · rintro ⟨⟨hno, hnd⟩, -, hall⟩
          exact ⟨hnd, fun x hx => by
            simpa [show x ≠ o from fun h => hno (h ▸ hx)] using hall x hx⟩

/-- A list that spends some outpoint twice fails, whatever the view. -/
theorem spendTxIns_error_of_dup (h : ¬ ops.Nodup) : ∃ err, spendTxIns view ops = .error err := by
  cases hs : spendTxIns view ops with
  | error err => exact ⟨err, rfl⟩
  | ok view' => exact absurd (spendTxIns_ok_iff.mp ⟨view', hs⟩).1 h

end Spend

end Classzz
