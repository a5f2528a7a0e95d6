import Classzz.Entangle

/-! `CheckBlockEntangle`, which runs `VerifyEntangleTx` on every entangle transaction of a block,
and what a run of accepted blocks guarantees: items of different blocks have different keys
(`CheckBlockEntangle_keys_disjoint`). -/

namespace Classzz

/-- The largest claimed height of the items, each converted to `int64`, from 0. -/
def maxEntangleHeight (items : List (UInt32 × EntangleTxInfo)) : Int64 :=
  items.foldl (fun max ii =>
    let h : Int64 := Signed.ofInt ii.2.height.toNat
    if max < h then h else max) 0

/-- The loop of `CheckBlockEntangle`, with the height `curHeight` that entangle transactions
must not go below. -/
def checkEntangleTxs (b : BlockChain) (curHeight : Int64) : List MsgTx → Except Fault Unit
  | [] => pure ()
  | tx :: rest =>
    match IsEntangleTx b.lib tx with
    | none => checkEntangleTxs b curHeight rest
    | some einfos =>
      let max := maxEntangleHeight (b.lib.mapOrder .maxHeight einfos)
      if curHeight > max then throw (.error "unordered entangle tx in the block")
      else match VerifyEntangleTx b.lib b.entangleVerify tx with
        | .error err => throw err
        | .ok _ => checkEntangleTxs b curHeight rest

/-- `CheckBlockEntangle`. `curHeight` starts at 0 and is never assigned again. -/
def CheckBlockEntangle (b : BlockChain) (block : Block) : Except Fault Unit :=
  checkEntangleTxs b 0 block.transactions

/-- The entangle items of the transactions, in block order. -/
def blockEntangleItems (lib : Lib) (txs : List MsgTx) : List EntangleTxInfo :=
  txs.flatMap fun tx => ((IsEntangleTx lib tx).getD []).map (·.2)

theorem checkEntangleTxs_ok {b : BlockChain} {curHeight : Int64} {txs : List MsgTx}
    (h : checkEntangleTxs b curHeight txs = .ok ()) {cache : CacheEntangleInfo}
    (hc : b.entangleVerify.cache = some cache) :
    ∀ v ∈ blockEntangleItems b.lib txs, v.key ∉ cache.keys := by
  induction txs with
  | nil => simp [blockEntangleItems]
  | cons tx rest ih =>
    simp only [checkEntangleTxs] at h
    simp only [blockEntangleItems, List.flatMap_cons, List.mem_append] at ih ⊢
    split at h
    · rename_i hn
      rintro v (hv | hv)
      · simp only [hn, Option.getD_none, List.map_nil, List.not_mem_nil] at hv
      · exact ih h v hv
    · rename_i einfos he
      rw [ite_throw_eq_ok] at h
      split at h
      · obtain ⟨-, ⟨⟩⟩ := h
      · rename_i pairs hv
        obtain ⟨einfos', he', hcache, -⟩ := VerifyEntangleTx_ok hv
        rw [he] at he'
        cases he'
        rintro v (hv | hv)
        · rw [he, Option.getD_some, List.mem_map] at hv
          obtain ⟨p, hp, rfl⟩ := hv
          exact hcache cache hc p hp
        · exact ih h.2 v hv

theorem foldl_max_nonneg {α : Type} (g : α → Int64) :
    ∀ (l : List α) (init : Int64), 0 ≤ init.val →
      0 ≤ (l.foldl (fun max a => if max < g a then g a else max) init).val
  | [], _, h => h
  | a :: l, init, h => foldl_max_nonneg g l _ (by
      show 0 ≤ (if init < g a then g a else init).val
      split
      · exact h.trans (le_of_lt ‹init < g a›)
      · exact h)

theorem maxEntangleHeight_nonneg (items : List (UInt32 × EntangleTxInfo)) :
    0 ≤ (maxEntangleHeight items).val := by
  have h := foldl_max_nonneg
    (fun ii : UInt32 × EntangleTxInfo => (Signed.ofInt ii.2.height.toNat : Int64)) items 0
    (by rw [Signed.val_zero])
  exact h

/-- From `curHeight = 0` the order test never fires: the loop accepts exactly when every entangle
transaction passes `VerifyEntangleTx`, whatever their heights. -/
theorem checkEntangleTxs_zero_ok_iff (b : BlockChain) (txs : List MsgTx) :
    checkEntangleTxs b 0 txs = .ok () ↔ ∀ tx ∈ txs, ∀ einfos, IsEntangleTx b.lib tx = some einfos →
      ∃ pairs, VerifyEntangleTx b.lib b.entangleVerify tx = .ok pairs := by
  induction txs with
  | nil => exact iff_of_true rfl fun _ h => absurd h (List.not_mem_nil _)
  | cons tx rest ih =>
    simp only [checkEntangleTxs, List.forall_mem_cons, ← ih]
    split
    · rename_i hn
      exact ⟨fun h => ⟨fun _ he => absurd (hn.symm.trans he) (by simp), h⟩, And.right⟩
    · rename_i einfos he
      have hmax := maxEntangleHeight_nonneg (b.lib.mapOrder .maxHeight einfos)
      rw [if_neg (by simp only [gt_iff_lt, Signed.lt_iff, Signed.val_zero]; omega)]
      split
      · rename_i err hv
        refine iff_of_false (by rintro ⟨⟩) fun h => ?_
        obtain ⟨_, hp⟩ := h.1 einfos he
        rw [hv] at hp
        cases hp
      · rename_i pairs hv
        exact ⟨fun h => ⟨fun _ _ => ⟨pairs, hv⟩, h⟩, And.right⟩

/-- The order of the transactions of a block never changes whether `CheckBlockEntangle` accepts
it: in particular it accepts entangle transactions in decreasing order of their heights. -/
theorem CheckBlockEntangle_perm {b : BlockChain} {block block' : Block}
    (h : block.transactions.Perm block'.transactions) :
    CheckBlockEntangle b block = .ok () ↔ CheckBlockEntangle b block' = .ok () := by
  simp only [CheckBlockEntangle, checkEntangleTxs_zero_ok_iff, h.mem_iff]

/-- The blocks accepted one after another by `CheckBlockEntangle`, newest first, each against a
dedup cache that holds the keys of the items of every block before it. -/
inductive EntangleRun (b : BlockChain) : List Block → Prop
  | nil : EntangleRun b []
  | cons {block : Block} {blocks : List Block} (cache : CacheEntangleInfo) :
      EntangleRun b blocks →
      (∀ blk ∈ blocks, ∀ v ∈ blockEntangleItems b.lib blk.transactions, v.key ∈ cache.keys) →
      CheckBlockEntangle { b with entangleVerify.cache := some cache } block = .ok () →
      EntangleRun b (block :: blocks)

/-- Along a run, the items of two different blocks have different keys: an item
`(ext_tx_hash, height, ex_type)` is credited in one block at most. -/
theorem CheckBlockEntangle_keys_disjoint {b : BlockChain} {blocks : List Block}
    (h : EntangleRun b blocks) :
    (blocks.map fun blk => (blockEntangleItems b.lib blk.transactions).map (·.key)).Pairwise
      List.Disjoint := by
  induction h with
  | nil => exact List.Pairwise.nil
  | cons cache _ hold hblock ih =>
    refine List.pairwise_cons.mpr ⟨?_, ih⟩
    simp only [List.mem_map]
    rintro _ ⟨blk, hblk, rfl⟩ k hk hk'
    obtain ⟨v, hv, rfl⟩ := List.mem_map.mp hk
    obtain ⟨w, hw, hvw⟩ := List.mem_map.mp hk'
    exact checkEntangleTxs_ok hblock rfl v hv (hvw ▸ hold blk hblk w hw)

/-! ### Sample runs -/

def sampleItem : EntangleTxInfo := ⟨expandedTxEntangleDoge, 0, 100, 5, [7]⟩

/-- A sample chain whose entangle scripts `[0xEE]` and `[0xEF]` carry `sampleItem` and the same
deposit claimed at height 101, and whose Doge client confirms deposits of 5 on a chain 1000
blocks long. -/
def BlockChain.dogeDeposits : BlockChain :=
  { BlockChain.sample with
    lib := { Lib.entangling sampleItem with
      entangleInfo := fun s =>
        if s = entangleScript then some sampleItem
        else if s = [0xEF] then some { sampleItem with height := 101 } else none }
    entangleVerify := ⟨[Client.confirming 5 1000], [], some ⟨[]⟩⟩ }

def txBlock (txs : List MsgTx) : Block := ⟨⟨⟨zeroHash, zeroHash, Time.ofUnix 0, 0, 0⟩, txs⟩, 0⟩

def heightRun : List Block := [txBlock [entangleTx [[0xEF]]], txBlock [entangleTx [entangleScript]]]

theorem heightRun_disjoint :
    EntangleRun .dogeDeposits heightRun ∧
      (heightRun.map fun blk =>
        (blockEntangleItems BlockChain.dogeDeposits.lib blk.transactions).map (·.key)).Pairwise
          List.Disjoint :=
  have h : EntangleRun .dogeDeposits heightRun :=
    .cons ⟨[sampleItem.key]⟩ (.cons ⟨[]⟩ .nil (by simp) rfl) (by decide) rfl
  ⟨h, CheckBlockEntangle_keys_disjoint h⟩

/-- One transaction claiming the same Doge output twice is accepted, and so is a later block
claiming it again at another height. -/
theorem CheckBlockEntangle_credits_twice :
    CheckBlockEntangle .dogeDeposits (txBlock [entangleTx [entangleScript, entangleScript]]) =
        .ok () ∧
      blockEntangleItems BlockChain.dogeDeposits.lib
        [entangleTx [entangleScript, entangleScript]] = [sampleItem, sampleItem] ∧
      EntangleRun .dogeDeposits heightRun ∧
      blockEntangleItems BlockChain.dogeDeposits.lib [entangleTx [[0xEF]]] =
        [{ sampleItem with height := 101 }] :=
  ⟨rfl, rfl, .cons ⟨[sampleItem.key]⟩ (.cons ⟨[]⟩ .nil (by simp) rfl) (by decide) rfl, rfl⟩

/-- The largest claimed height of each entangle transaction, in block order. -/
def entangleMaxHeights (lib : Lib) (txs : List MsgTx) : List Nat :=
  txs.filterMap fun tx =>
    (IsEntangleTx lib tx).map fun einfos => (einfos.map (·.2.height.toNat)).foldl max 0

theorem CheckBlockEntangle_accepts_descending :
    entangleMaxHeights BlockChain.dogeDeposits.lib [entangleTx [[0xEF]], entangleTx [entangleScript]] =
        [101, 100] ∧
      CheckBlockEntangle .dogeDeposits (txBlock [entangleTx [[0xEF]], entangleTx [entangleScript]]) =
        .ok () :=
  ⟨rfl, (@CheckBlockEntangle_perm _ (txBlock [entangleTx [entangleScript], entangleTx [[0xEF]]])
    (txBlock [entangleTx [[0xEF]], entangleTx [entangleScript]]) (List.Perm.swap _ _ [])).mp rfl⟩

/-! ### The order of map iteration -/

/-- Go draws a fresh visiting order at every `range` over a map, and `CheckBlockEntangle` ranges
over the entangle items of each transaction three times: for the maximum height and in the two
loops of `VerifyEntangleTx`. Whatever order each loop takes, the verdict is the same, so every
node accepts the same blocks. -/
theorem CheckBlockEntangle_mapOrder (b : BlockChain) (block : Block)
    (order : MapRange → List (UInt32 × EntangleTxInfo) → List (UInt32 × EntangleTxInfo))
    (horder : ∀ r m, (order r m).Perm m) :
    CheckBlockEntangle b block = .ok () ↔
      CheckBlockEntangle { b with lib := { b.lib with mapOrder := order, mapOrder_perm := horder } }
        block = .ok () := by
  simp only [CheckBlockEntangle, checkEntangleTxs_zero_ok_iff, VerifyEntangleTx_ok_iff]
  rfl

theorem CheckBlockEntangle_mapOrder_reverse :
    CheckBlockEntangle .dogeDeposits (txBlock [entangleTx [entangleScript, [0xEF]]]) = .ok () ↔
      CheckBlockEntangle { BlockChain.dogeDeposits with
        lib := { BlockChain.dogeDeposits.lib with
          mapOrder := fun r m => if r = .verifyItems then m.reverse else m
          mapOrder_perm := fun r m => by beta_reduce; split <;> simp } }
        (txBlock [entangleTx [entangleScript, [0xEF]]]) = .ok () :=
  CheckBlockEntangle_mapOrder _ _ _ _

end Classzz
