import Classzz.Coinbase

/-! The entangle verifier of the cross package: `IsEntangleTx`, the per-chain checks
`verifyDogeTx` and `verifyLtcTx`, and `VerifyEntangleTx`. The dedup cache is read, never
written, and the claimed amount and height go through `int64` conversions. -/

namespace Classzz

/-- Modelled from the spec: `cross.IsEntangleTx` (§4.5, "scans output scripts for the
entangle-script framing; returns None if none found"). The items, keyed by the index of the
output that carries them, in output order. -/
def IsEntangleTx (lib : Lib) (tx : MsgTx) : Option (List (UInt32 × EntangleTxInfo)) :=
  let infos := tx.txOut.enum.filterMap fun (i, out) =>
    (lib.entangleInfo out.pkScript).map fun v => (UInt32.ofNat i, v)
  if infos.isEmpty then none else some infos

/-- `x.Int64()` of a `big.Int`: the low 64 bits of `x` in two's complement (`big.Int` takes
them from the magnitude and negates, which gives the same bits). -/
def bigInt64 (x : Int) : Int64 := Signed.ofInt x

def dogePoolAddr : String := "DNGzkoZbnVMihLTMq8M1m7L62XvN3d2cN2"
def ltcPoolAddr : String := "MUy9qiaLQtaqmKBSk27FXrEEfUkRBeddCZ"
def dogeMaturity : Int := 14
def ltcMaturity : Int := 14

/-- What tells `verifyDogeTx` and `verifyLtcTx` apart: the chain's name in messages, the
address byte of its script-hash addresses, its pool address, its maturity and its error
texts. -/
structure ForeignChain where
  name : String
  addrID : UInt8
  poolAddr : String
  maturity : Int
  indexErr : String
  pkScriptErr : String
  poolErr : String
  poolAddrErr : String
  maturityErr : String

def dogeChain : ForeignChain :=
  ⟨"doge", 0x1e, dogePoolAddr, dogeMaturity, "doge TxOut index err", "doge PkScript err",
    "doge Pool err", "doge dogePoolPub err", "dogeMaturity err"⟩

def ltcChain : ForeignChain :=
  ⟨"ltc", 0x32, ltcPoolAddr, ltcMaturity, "ltc TxOut index err", "ltc PkScript err",
    "ltcaddr err", "ltc ltcPoolAddr err", "ltcMaturity err"⟩

/-- The client `clients[rand.Intn(len(clients))]`; `rand.Intn(0)` panics. -/
def pickClient (lib : Lib) (clients : List Client) : Except Fault Client :=
  if clients.length = 0 then .error .panic else index clients (lib.randIntn clients.length)

/-- The body shared by `verifyDogeTx` and `verifyLtcTx`: fetch the foreign transaction, check
output `Vout` (its value against `Amount.Int64()`, its script class, its pool address), recover
the depositor's key from the first input, and require `count - int64(height) > maturity`. -/
def verifyForeignTx (lib : Lib) (fc : ForeignChain) (clients : List Client)
    (ExtTxHash : List UInt8) (Vout : UInt32) (Amount : Int) (height : UInt64) :
    Except Fault (List UInt8) := do
  let client ← pickClient lib clients
  let tx ← client.getRawTransaction ExtTxHash
  if tx.txOut.length < Vout.toNat then throw (.error fc.indexErr) else do
  let out ← index tx.txOut Vout.toNat
  if out.value ≠ bigInt64 Amount then
    let value := out.value
    let name := fc.name
    throw (.error s!"amount err ,[request:{Amount},{name}:{value}]")
  else if lib.getScriptClass out.pkScript ≠ 2 then throw (.error fc.pkScriptErr) else do
  let pub ← lib.extractPkScriptPub out.pkScript
  let addr ← (lib.legacyScriptHashAddress pub fc.addrID).mapError fun _ => .error fc.poolErr
  if addr ≠ fc.poolAddr then throw (.error fc.poolAddrErr) else do
  let txIn ← index tx.txIn 0
  let pk ← (lib.computePk txIn.signatureScript).mapError fun e =>
    let errText := e.text
    let pkScriptErr := fc.pkScriptErr
    .error s!"{pkScriptErr} {errText}"
  let count ← client.getBlockCount
  if (count - Signed.ofInt height.toNat).val > fc.maturity then pure pk
  else throw (.error fc.maturityErr)

def verifyDogeTx (lib : Lib) (ev : EntangleVerify) (ExtTxHash : List UInt8) (Vout : UInt32)
    (Amount : Int) (height : UInt64) : Except Fault (List UInt8) :=
  verifyForeignTx lib dogeChain ev.dogeCoinRPC ExtTxHash Vout Amount height

def verifyLtcTx (lib : Lib) (ev : EntangleVerify) (ExtTxHash : List UInt8) (Vout : UInt32)
    (Amount : Int) (height : UInt64) : Except Fault (List UInt8) :=
  verifyForeignTx lib ltcChain ev.ltcCoinRPC ExtTxHash Vout Amount height

/-- `verifyTx`: dispatch on the item's type; any other type is accepted unchecked, with no
key. -/
def verifyTx (lib : Lib) (ev : EntangleVerify) (ExTxType : ExpandedTxType)
    (ExtTxHash : List UInt8) (Vout : UInt32) (height : UInt64) (amount : Int) :
    Except Fault (List UInt8) :=
  if ExTxType = expandedTxEntangleDoge then verifyDogeTx lib ev ExtTxHash Vout amount height
  else if ExTxType = expandedTxEntangleLtc then verifyLtcTx lib ev ExtTxHash Vout amount height
  else pure []

/-- The cache loop of `VerifyEntangleTx`: no item is in the cache. The sum of the outputs'
values that the loop also keeps is never read. -/
def checkEntangleCache (cache : CacheEntangleInfo) :
    List (UInt32 × EntangleTxInfo) → Except Fault Unit
  | [] => pure ()
  | (_, v) :: rest =>
    if cache.FetchEntangleUtxoView v then
      let txid := v.extTxHash
      let height := v.height.toNat
      throw (.error s!"txid has already entangle:[txid:{txid}, height:{height}]")
    else checkEntangleCache cache rest

/-- The verification loop of `VerifyEntangleTx`: each item against its chain, collecting the
recovered keys. A panic in `verifyTx` is not an error value and passes through. -/
def verifyEntangleItems (lib : Lib) (ev : EntangleVerify) :
    List (UInt32 × EntangleTxInfo) → Except Fault (List TuplePubIndex)
  | [] => pure []
  | (i, v) :: rest =>
    match verifyTx lib ev v.exTxType v.extTxHash v.index v.height v.amount with
    | .error .panic => throw .panic
    | .error err =>
      let txid := v.extTxHash
      let vout := v.index
      let errText := err.text
      throw (.error s!"txid verify failed:[txid:{txid}, height:{vout}] err:{errText}")
    | .ok pub => do
      let pairs ← verifyEntangleItems lib ev rest
      pure (⟨v.exTxType, i, pub⟩ :: pairs)

/-- `VerifyEntangleTx`. Both loops range over the map of items, in the order Go picks. -/
def VerifyEntangleTx (lib : Lib) (ev : EntangleVerify) (tx : MsgTx) :
    Except Fault (List TuplePubIndex) :=
  match IsEntangleTx lib tx with
  | none => throw (.error "not entangle tx")
  | some einfos => do
    (match ev.cache with
      | some cache => checkEntangleCache cache (lib.mapOrder .verifyCache einfos)
      | none => pure ())
    verifyEntangleItems lib ev (lib.mapOrder .verifyItems einfos)

/-! ### What an accepted item satisfies -/

theorem verifyEntangleItems_ok_iff {lib : Lib} {ev : EntangleVerify}
    {items : List (UInt32 × EntangleTxInfo)} :
    (∃ pairs, verifyEntangleItems lib ev items = .ok pairs) ↔ ∀ p ∈ items, ∃ pub,
      verifyTx lib ev p.2.exTxType p.2.extTxHash p.2.index p.2.height p.2.amount = .ok pub := by
  induction items with
  | nil => simp [verifyEntangleItems, pure, Except.pure]
  | cons p rest ih =>
    simp only [verifyEntangleItems, List.forall_mem_cons, ← ih]
    split
    case h_3 pub hv =>
      simp only [hv, bind_eq_ok, pure, Except.pure, Except.ok.injEq, exists_eq', true_and]
      exact ⟨fun ⟨_, a, ha, _⟩ => ⟨a, ha⟩, fun ⟨a, ha⟩ => ⟨_, a, ha, rfl⟩⟩
    all_goals
      rename_i hv
      exact iff_of_false (fun ⟨_, h⟩ => nomatch h) fun ⟨⟨_, hp⟩, _⟩ => nomatch hv.symm.trans hp

theorem checkEntangleCache_ok_iff (cache : CacheEntangleInfo)
    (items : List (UInt32 × EntangleTxInfo)) :
    checkEntangleCache cache items = .ok () ↔ ∀ p ∈ items, p.2.key ∉ cache.keys := by
  induction items with
  | nil => simp [checkEntangleCache, pure, Except.pure]
  | cons p rest ih =>
    simp only [checkEntangleCache, CacheEntangleInfo.FetchEntangleUtxoView, decide_eq_true_eq]
    split_ifs with hk
    · simp [hk, throw, throwThe, MonadExceptOf.throw]
    · simp [ih, hk]

/-- `VerifyEntangleTx` succeeds exactly on a transaction with entangle items, none of them in the
cache, each passing `verifyTx`, whatever order Go visits them in. -/
theorem VerifyEntangleTx_ok_iff {lib : Lib} {ev : EntangleVerify} {tx : MsgTx} :
    (∃ pairs, VerifyEntangleTx lib ev tx = .ok pairs) ↔
      ∃ einfos, IsEntangleTx lib tx = some einfos ∧
        (∀ cache, ev.cache = some cache → ∀ p ∈ einfos, p.2.key ∉ cache.keys) ∧
        ∀ p ∈ einfos, ∃ pub,
          verifyTx lib ev p.2.exTxType p.2.extTxHash p.2.index p.2.height p.2.amount = .ok pub := by
  unfold VerifyEntangleTx
  split
  · rename_i hn
    exact iff_of_false (fun ⟨_, h⟩ => nomatch h) fun ⟨_, he, _⟩ => nomatch hn.symm.trans he
  · rename_i einfos he
    -- each loop visits the items in its own order, a permutation of them
    have hset : ∀ r (q : UInt32 × EntangleTxInfo → Prop),
        (∀ p ∈ lib.mapOrder r einfos, q p) ↔ ∀ p ∈ einfos, q p := fun r q =>
      forall_congr' fun p => imp_congr_left (lib.mapOrder_perm r einfos).mem_iff
    simp only [he, Option.some.injEq, exists_eq_left']
    cases ev.cache with
    | none =>
      simp only [pure_bind, verifyEntangleItems_ok_iff, hset, reduceCtorEq, false_implies,
        implies_true, true_and]
    | some cache =>
      simp only [bind_unit_eq_ok, exists_and_left, checkEntangleCache_ok_iff,
        verifyEntangleItems_ok_iff, hset, Option.some.injEq, forall_eq']

theorem VerifyEntangleTx_ok {lib : Lib} {ev : EntangleVerify} {tx : MsgTx}
    {pairs : List TuplePubIndex} (h : VerifyEntangleTx lib ev tx = .ok pairs) :
    ∃ einfos, IsEntangleTx lib tx = some einfos ∧
      (∀ cache, ev.cache = some cache → ∀ p ∈ einfos, p.2.key ∉ cache.keys) ∧
      ∀ p ∈ einfos, ∃ pub,
        verifyTx lib ev p.2.exTxType p.2.extTxHash p.2.index p.2.height p.2.amount =
          .ok pub :=
  VerifyEntangleTx_ok_iff.mp ⟨pairs, h⟩

/-! ### Deposits the verifier accepts -/

def entangleScript : List UInt8 := [0xEE]

/-- Sample collaborators for entangle transactions: `entangleScript` carries the item `v`, and
an address built with a chain's address byte is that chain's pool address. -/
def Lib.entangling (v : EntangleTxInfo) : Lib :=
  { Lib.sample with
    entangleInfo := fun s => if s = entangleScript then some v else none
    legacyScriptHashAddress := fun _ id =>
      .ok (if id = dogeChain.addrID then dogePoolAddr else ltcPoolAddr) }

/-- A client whose every transaction has one input and one output of value `value`, and whose
chain is `count` blocks long. -/
def Client.confirming (value count : Int64) : Client :=
  ⟨fun _ => .ok ⟨[⟨⟨zeroHash, 0⟩, [1], 0⟩], [⟨value, [0xA9]⟩], 0⟩, .ok count⟩

def entangleTx (scripts : List (List UInt8)) : MsgTx :=
  ⟨[⟨⟨zeroHash, maxUint32⟩, [0], 0⟩], scripts.map fun s => ⟨0, s⟩, 0⟩

/-- Three items that `VerifyEntangleTx` accepts although the foreign chain does not back them:
a Doge deposit claiming `2^64 + 5` against an output of value 5; one claiming height
`2^64 - 1` on a chain 100 blocks long; and an item of type 0, which neither client is asked
about. -/
theorem VerifyEntangleTx_accepts_unbacked :
    VerifyEntangleTx (Lib.entangling ⟨expandedTxEntangleDoge, 0, 100, 2 ^ 64 + 5, [7]⟩)
        ⟨[Client.confirming 5 1000], [], some ⟨[]⟩⟩ (entangleTx [entangleScript]) =
      .ok [⟨expandedTxEntangleDoge, 0, [1]⟩] ∧
    VerifyEntangleTx (Lib.entangling ⟨expandedTxEntangleDoge, 0, 18446744073709551615, 5, [7]⟩)
        ⟨[Client.confirming 5 100], [], some ⟨[]⟩⟩ (entangleTx [entangleScript]) =
      .ok [⟨expandedTxEntangleDoge, 0, [1]⟩] ∧
    VerifyEntangleTx (Lib.entangling ⟨0, 0, 0, 5, [7]⟩)
        ⟨[Client.confirming 5 1000], [Client.confirming 5 1000], some ⟨[]⟩⟩
        (entangleTx [entangleScript]) = .ok [⟨0, 0, []⟩] :=
  ⟨rfl, rfl, rfl⟩

/-! ### Where the verifier panics -/

/-- `verifyForeignTx` panics on a foreign transaction with exactly `Vout` outputs: the guard
`len(TxOut) < Vout` lets `Vout = len(TxOut)` through to the read `TxOut[Vout]`. -/
theorem verifyForeignTx_eq_panic {lib : Lib} {fc : ForeignChain} {clients : List Client}
    {hash : List UInt8} {vout : UInt32} {amount : Int} {height : UInt64} {client : Client}
    {tx : MsgTx} (hc : pickClient lib clients = .ok client)
    (htx : client.getRawTransaction hash = .ok tx) (hlen : tx.txOut.length = vout.toNat) :
    verifyForeignTx lib fc clients hash vout amount height = .error .panic := by
  have hidx : index tx.txOut vout.toNat = .error .panic := by simp [index, ← hlen]
  simp only [verifyForeignTx, hc, htx, bind_ok, hlen, Nat.lt_irrefl, if_false, hidx, bind_error]

/-- A transaction whose first item, in the order the map yields, is a Doge deposit whose
foreign transaction has exactly `Vout` outputs makes `VerifyEntangleTx` panic, once the cache
has none of its items. -/
theorem VerifyEntangleTx_panics_at_output_count {lib : Lib} {ev : EntangleVerify} {tx : MsgTx}
    {einfos rest : List (UInt32 × EntangleTxInfo)} {i : UInt32} {v : EntangleTxInfo}
    {client : Client} {ftx : MsgTx} (he : IsEntangleTx lib tx = some einfos)
    (horder : lib.mapOrder .verifyItems einfos = (i, v) :: rest)
    (hcache : ∀ cache, ev.cache = some cache → ∀ p ∈ einfos, p.2.key ∉ cache.keys)
    (hdoge : v.exTxType = expandedTxEntangleDoge) (hc : pickClient lib ev.dogeCoinRPC = .ok client)
    (htx : client.getRawTransaction v.extTxHash = .ok ftx)
    (hlen : ftx.txOut.length = v.index.toNat) :
    VerifyEntangleTx lib ev tx = .error .panic := by
  have hcached : (match ev.cache with
      | some cache => checkEntangleCache cache (lib.mapOrder .verifyCache einfos)
      | none => pure ()) = .ok () := by
    cases hev : ev.cache with
    | none => rfl
    | some cache =>
      exact (checkEntangleCache_ok_iff cache _).mpr fun p hp =>
        hcache cache hev p ((lib.mapOrder_perm _ einfos).mem_iff.mp hp)
  have hv : verifyTx lib ev v.exTxType v.extTxHash v.index v.height v.amount = .error .panic := by
    simp only [verifyTx, hdoge, if_true, verifyDogeTx]
    exact verifyForeignTx_eq_panic hc htx hlen
  simp only [VerifyEntangleTx, he, horder, hcached, bind_ok, verifyEntangleItems, hv]
  rfl

theorem VerifyEntangleTx_panics_at_output_count_one :
    VerifyEntangleTx (Lib.entangling ⟨expandedTxEntangleDoge, 1, 100, 5, [7]⟩)
      ⟨[Client.confirming 5 1000], [], some ⟨[]⟩⟩ (entangleTx [entangleScript]) = .error .panic :=
  VerifyEntangleTx_panics_at_output_count rfl rfl (fun _ hc _ _ => by cases hc; simp)
    rfl rfl rfl rfl

end Classzz
