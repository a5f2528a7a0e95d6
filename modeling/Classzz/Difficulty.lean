import Mathlib.Tactic.Linarith
import Classzz.Compact
import Classzz.Lib

/-! The difficulty retarget `calcNextRequiredDifficulty`, which sets the next target from the
parent's own work and the block's delay, as a chain of monotone steps
(`calcNextRequiredDifficulty_eq`), with the bounds on how far one block moves the target; and
`getSuitableBlock`, the median of three nodes by timestamp. -/

namespace Classzz

def DifficultyBoundDivisor : Int := 128

/-- `calcNextRequiredDifficulty`. `big.Int` division is Euclidean, as `Int` division is. A node
at a height other than 0 without a parent is dereferenced, and a new difficulty of zero is
divided by: both panic. -/
def calcNextRequiredDifficulty (b : BlockChain) (lastNode : Option BlockNode)
    (newBlockTime : Time) : Except Fault UInt32 :=
  match lastNode with
  | none => pure b.chainParams.powLimitBits
  | some lastNode =>
    if b.chainParams.noDifficultyAdjustment then pure lastNode.bits
    else do
      -- `max(1 - (block_timestamp - parent_timestamp) // 30, -99)`
      let x := 1 - (newBlockTime.unix - lastNode.timestamp.val) / 30
      let x := if x < -99 then -99 else x
      let difficulty ← if lastNode.height ≠ 0 then
          match lastNode.parent with
          | some parent => pure ((lastNode.workSum : Int) - parent.workSum)
          | none => throw .panic
        else pure (lastNode.workSum : Int)
      let newDifficulty := difficulty + difficulty * x / DifficultyBoundDivisor
      if newDifficulty = 0 then throw .panic
      else
        let newTarget := (2 ^ 256 - newDifficulty) / newDifficulty
        let powLimit : Int := b.chainParams.powLimit
        let newTarget := if newTarget > powLimit then powLimit else newTarget
        pure (BigToCompact newTarget)

def CalcNextRequiredDifficulty (b : BlockChain) (timestamp : Time) : Except Fault UInt32 :=
  calcNextRequiredDifficulty b (some b.bestTip) timestamp

/-- One compare-and-swap of `getSuitableBlock`: the node with the earlier timestamp first. -/
def compareSwap (x y : BlockNode) : BlockNode × BlockNode :=
  if x.timestamp > y.timestamp then (y, x) else (x, y)

/-- `node.RelativeAncestor(1)`, or the `AssertError` `getSuitableBlock` returns without one. -/
def parentOrAssert (node : BlockNode) : Except Fault BlockNode :=
  match node.parent with
  | some parent => pure parent
  | none => throw (.error "assertion failed: unable to obtain relative ancestor")

/-- `getSuitableBlock`: `node0` and its two ancestors, sorted by timestamp with three
compare-and-swaps, and the middle one. -/
def getSuitableBlock (node0 : BlockNode) : Except Fault BlockNode := do
  let node1 ← parentOrAssert node0
  let node2 ← parentOrAssert node1
  let (b0, b2) := compareSwap node2 node0
  let (_, b1) := compareSwap b0 node1
  let (b1, _) := compareSwap b1 b2
  pure b1

theorem parentOrAssert_eq_ok {node parent : BlockNode} :
    parentOrAssert node = .ok parent ↔ node.parent = some parent := by
  unfold parentOrAssert
  split <;> simp_all [pure, Except.pure, throw, throwThe, MonadExceptOf.throw]

theorem compareSwap_timestamp (x y : BlockNode) :
    (compareSwap x y).1.timestamp.val = min x.timestamp.val y.timestamp.val ∧
      (compareSwap x y).2.timestamp.val = max x.timestamp.val y.timestamp.val := by
  unfold compareSwap
  split_ifs with h <;> simp only [gt_iff_lt, Signed.lt_iff, min_def, max_def] at h ⊢ <;>
    split_ifs <;> omega

theorem compareSwap_mem (x y : BlockNode) :
    ((compareSwap x y).1 = x ∧ (compareSwap x y).2 = y) ∨
      ((compareSwap x y).1 = y ∧ (compareSwap x y).2 = x) := by
  unfold compareSwap; split_ifs <;> simp

/-- `getSuitableBlock` returns one of the three nodes whose timestamp is their median: not
below the earlier two and not above the later two. -/
theorem getSuitableBlock_median {node0 m : BlockNode} (h : getSuitableBlock node0 = .ok m) :
    ∃ node1 node2, node0.parent = some node1 ∧ node1.parent = some node2 ∧
      (m = node0 ∨ m = node1 ∨ m = node2) ∧
      m.timestamp.val = max (min node2.timestamp.val node0.timestamp.val)
        (min (max node2.timestamp.val node0.timestamp.val) node1.timestamp.val) := by
  simp only [getSuitableBlock, bind_eq_ok, parentOrAssert_eq_ok] at h
  obtain ⟨node1, h1, node2, h2, h⟩ := h
  refine ⟨node1, node2, h1, h2, ?_, ?_⟩ <;> cases h
  · -- each compare-and-swap returns two of the three nodes
    have hS : ∀ {x y : BlockNode}, x ∈ [node0, node1, node2] → y ∈ [node0, node1, node2] →
        (compareSwap x y).1 ∈ [node0, node1, node2] ∧
          (compareSwap x y).2 ∈ [node0, node1, node2] := fun hx hy => by
      rcases compareSwap_mem _ _ with ⟨e1, e2⟩ | ⟨e1, e2⟩ <;> rw [e1, e2] <;> exact ⟨‹_›, ‹_›⟩
    have h20 := @hS node2 node0 (by simp) (by simp)
    simpa using (hS (@hS _ node1 h20.1 (by simp)).2 h20.2).1
  · obtain ⟨a1, a2⟩ := compareSwap_timestamp node2 node0
    obtain ⟨b1, b2⟩ := compareSwap_timestamp (compareSwap node2 node0).1 node1
    obtain ⟨c1, -⟩ := compareSwap_timestamp (compareSwap (compareSwap node2 node0).1 node1).2
      (compareSwap node2 node0).2
    omega

def medianOldest : BlockNode := ⟨⟨1⟩, 0, 0x1d00ffff, 20, 0, none⟩

def medianNode : BlockNode :=
  ⟨⟨3⟩, 2, 0x1d00ffff, 30, 0, some ⟨⟨2⟩, 1, 0x1d00ffff, 10, 0, some medianOldest⟩⟩

theorem getSuitableBlock_median_medianNode :
    getSuitableBlock medianNode = .ok medianOldest ∧
      ∃ node1 node2, medianNode.parent = some node1 ∧ node1.parent = some node2 ∧
        (medianOldest = medianNode ∨ medianOldest = node1 ∨ medianOldest = node2) ∧
        medianOldest.timestamp.val = max (min node2.timestamp.val medianNode.timestamp.val)
          (min (max node2.timestamp.val medianNode.timestamp.val) node1.timestamp.val) :=
  have h : getSuitableBlock medianNode = .ok medianOldest := rfl
  ⟨h, getSuitableBlock_median h⟩

/-! ### The retarget as a function of the block time -/

/-- The work a node added to the chain, as `calcNextRequiredDifficulty` reads it: its
`workSum` less its parent's, or its whole `workSum` at height 0. A node at another height
without a parent has none, and the retarget panics on it. -/
def BlockNode.workIncrement (node : BlockNode) : Option Int :=
  if node.height ≠ 0 then node.parent.map fun parent => (node.workSum : Int) - parent.workSum
  else some node.workSum

/-- The factor `max(1 - (t - t_parent) // 30, -99)` of the retarget. -/
def retargetFactor (newBlockTime : Time) (parentTime : Int64) : Int :=
  max (1 - (newBlockTime.unix - parentTime.val) / 30) (-99)

/-- The new difficulty `D + D * x // 128`. -/
def nextDifficulty (difficulty x : Int) : Int :=
  difficulty + difficulty * x / DifficultyBoundDivisor

/-- The new target `(2^256 - D) // D`, clipped to the proof-of-work limit. -/
def nextTarget (newDifficulty : Int) (powLimit : Nat) : Int :=
  min ((2 ^ 256 - newDifficulty) / newDifficulty) powLimit

/-- With adjustment on, the retarget after a node whose work increment is `D`: a panic when
the new difficulty is zero, and otherwise the compact form of the clipped new target. -/
theorem calcNextRequiredDifficulty_eq {b : BlockChain} {P : BlockNode} {D : Int} (t : Time)
    (hadj : b.chainParams.noDifficultyAdjustment = false) (hw : P.workIncrement = some D) :
    calcNextRequiredDifficulty b (some P) t =
      if nextDifficulty D (retargetFactor t P.timestamp) = 0 then .error .panic
      else .ok (BigToCompact
        (nextTarget (nextDifficulty D (retargetFactor t P.timestamp)) b.chainParams.powLimit)) := by
  have hx : ∀ x : Int, (if x < -99 then -99 else x) = max x (-99) := fun x => by
    simp only [max_def]; split_ifs <;> omega
  have hclip : ∀ v : Int, (if v > b.chainParams.powLimit then (b.chainParams.powLimit : Int) else v) =
      min v b.chainParams.powLimit := fun v => by
    simp only [min_def]; split_ifs <;> omega
  unfold BlockNode.workIncrement at hw
  simp only [calcNextRequiredDifficulty, hadj, Bool.false_eq_true, if_false, hx, hclip]
  split_ifs at hw with hh
  · obtain ⟨parent, hp, rfl⟩ := Option.map_eq_some'.mp hw
    simp only [if_pos hh, hp, pure_bind]
    rfl
  · cases hw
    simp only [if_neg hh, pure_bind]
    rfl

/-! ### Each step of the retarget is monotone -/

theorem retargetFactor_antitone {t1 t2 : Time} (p : Int64) (ht : t1.unix ≤ t2.unix) :
    retargetFactor t2 p ≤ retargetFactor t1 p := by
  simp only [retargetFactor]; omega

theorem retargetFactor_le_one {t : Time} {p : Int64} (hp : p.val ≤ t.unix) :
    retargetFactor t p ≤ 1 := by
  simp only [retargetFactor]; omega

theorem neg_99_le_retargetFactor (t : Time) (p : Int64) : -99 ≤ retargetFactor t p :=
  le_max_right _ _

theorem nextDifficulty_mono {D x y : Int} (hD : 0 ≤ D) (hxy : x ≤ y) :
    nextDifficulty D x ≤ nextDifficulty D y := by
  have := Int.ediv_le_ediv (by decide : (0 : Int) < 128) (mul_le_mul_of_nonneg_left hxy hD)
  simp only [nextDifficulty, DifficultyBoundDivisor]; omega

theorem nextDifficulty_lower {D x : Int} (hD : 0 ≤ D) (hx : -99 ≤ x) :
    D - (99 * D + 127) / 128 ≤ nextDifficulty D x := by
  have := nextDifficulty_mono hD hx
  simp only [nextDifficulty, DifficultyBoundDivisor] at this ⊢; omega

theorem nextDifficulty_le {D x : Int} (hD : 0 ≤ D) (hx : x ≤ 1) :
    nextDifficulty D x ≤ D + D / 128 := by
  have := nextDifficulty_mono hD hx
  simp only [nextDifficulty, DifficultyBoundDivisor, mul_one] at this ⊢; exact this

theorem target_eq {d : Int} (hd : d ≠ 0) : (2 ^ 256 - d) / d = 2 ^ 256 / d - 1 := by
  rw [sub_eq_add_neg, ← mul_neg_one d, mul_comm, Int.add_mul_ediv_right _ _ hd]; rfl

theorem nextTarget_antitone {d1 d2 : Int} (powLimit : Nat) (h1 : 0 < d1) (h : d1 ≤ d2) :
    nextTarget d2 powLimit ≤ nextTarget d1 powLimit := by
  have hq : 2 ^ 256 / d2 ≤ 2 ^ 256 / d1 := by
    rw [Int.le_ediv_iff_mul_le h1]
    calc 2 ^ 256 / d2 * d1 ≤ 2 ^ 256 / d2 * d2 :=
          mul_le_mul_of_nonneg_left h (Int.ediv_nonneg (by norm_num) (by omega))
      _ ≤ 2 ^ 256 := Int.ediv_mul_le _ (by omega)
  simp only [nextTarget, target_eq h1.ne', target_eq (show d2 ≠ 0 by omega)]
  exact min_le_min_right _ (by omega)

theorem nextTarget_mem {d : Int} (powLimit : Nat) (h0 : 0 < d) (h1 : d ≤ 2 ^ 256) :
    0 ≤ nextTarget d powLimit ∧ nextTarget d powLimit < 2 ^ 256 := by
  have hlo : 1 ≤ 2 ^ 256 / d := by rw [Int.le_ediv_iff_mul_le h0]; omega
  have hhi : 2 ^ 256 / d ≤ 2 ^ 256 := Int.ediv_le_self _ (by norm_num)
  simp only [nextTarget, target_eq h0.ne']
  constructor <;> simp only [le_min_iff, min_lt_iff] <;> omega

theorem CompactToBig_BigToCompact_nextTarget_le {d : Int} (powLimit : Nat) (h0 : 0 < d) :
    CompactToBig (BigToCompact (nextTarget d powLimit)) ≤ nextTarget d powLimit := by
  have hq : 0 ≤ 2 ^ 256 / d := Int.ediv_nonneg (by norm_num) h0.le
  have hq' : 2 ^ 256 / d ≤ 2 ^ 256 := Int.ediv_le_self _ (by norm_num)
  rcases (show -1 ≤ nextTarget d powLimit by
      simp only [nextTarget, target_eq h0.ne', le_min_iff]; omega).eq_or_lt with h | h
  · rw [← h]; decide
  · exact (isTruncation_CompactToBig_BigToCompact h (by
      simp only [nextTarget, target_eq h0.ne', min_lt_iff]; omega)).le

/-! ### What the retarget guarantees

`sampleParent` is a node at height 0 with the bits `0x1d00ffff` and their work; the sample chain
adjusts difficulty with the limit `2^224 - 1`. -/

def sampleParent : BlockNode := ⟨⟨1⟩, 0, 0x1d00ffff, 1500000000, 4295032833, none⟩

/-- A block that arrives later is never required to meet a harder target: for block times at
or after the node's, the decoded target of the retarget grows with the time. -/
theorem calcNextRequiredDifficulty_monotone {b : BlockChain} {P : BlockNode} {t1 t2 : Time}
    {c1 c2 : UInt32} (hw : P.workIncrement = some (CalcWork P.bits))
    (hp : P.timestamp.val ≤ t1.unix) (ht : t1.unix ≤ t2.unix)
    (h1 : calcNextRequiredDifficulty b (some P) t1 = .ok c1)
    (h2 : calcNextRequiredDifficulty b (some P) t2 = .ok c2) :
    CompactToBig c1 ≤ CompactToBig c2 := by
  cases hadj : b.chainParams.noDifficultyAdjustment
  · rw [calcNextRequiredDifficulty_eq t1 hadj hw] at h1
    rw [calcNextRequiredDifficulty_eq t2 hadj hw] at h2
    obtain ⟨hD0, hD⟩ := CalcWork_mem P.bits
    split_ifs at h1 h2 with hd1 hd2
    obtain rfl := Except.ok.inj h1
    obtain rfl := Except.ok.inj h2
    have h21 := nextDifficulty_mono hD0 (retargetFactor_antitone P.timestamp ht)
    have hd2 := nextDifficulty_lower hD0 (neg_99_le_retargetFactor t2 P.timestamp)
    have hd1 := nextDifficulty_le hD0 (retargetFactor_le_one hp)
    have hpos : 0 < nextDifficulty (CalcWork P.bits) (retargetFactor t2 P.timestamp) := by omega
    obtain ⟨a0, a1⟩ := nextTarget_mem b.chainParams.powLimit (hpos.trans_le h21) (by omega)
    obtain ⟨b0, b1⟩ := nextTarget_mem b.chainParams.powLimit hpos (by omega)
    exact (isTruncation_CompactToBig_BigToCompact a0 a1).mono
      (isTruncation_CompactToBig_BigToCompact b0 b1) (nextTarget_antitone _ hpos h21)
  · simp only [calcNextRequiredDifficulty, hadj, if_true, pure, Except.pure, Except.ok.injEq] at h1 h2
    rw [← h1, ← h2]

set_option maxRecDepth 10000 in
theorem calcNextRequiredDifficulty_monotone_at :
    calcNextRequiredDifficulty .sample (some sampleParent) (Time.ofUnix 1500000010) =
        .ok 0x1d00fe02 ∧
      calcNextRequiredDifficulty .sample (some sampleParent) (Time.ofUnix 1500000100) =
        .ok 0x1d00ffff ∧
      CompactToBig 0x1d00fe02 ≤ CompactToBig 0x1d00ffff :=
  have h1 : calcNextRequiredDifficulty .sample (some sampleParent) (Time.ofUnix 1500000010) =
      .ok 0x1d00fe02 := rfl
  have h2 : calcNextRequiredDifficulty .sample (some sampleParent) (Time.ofUnix 1500000100) =
      .ok 0x1d00ffff := rfl
  ⟨h1, h2, calcNextRequiredDifficulty_monotone (by decide) (by decide) (by decide) h1 h2⟩

theorem steady_quotient {M y : Nat} (hM : M < 2 ^ 23) (hy0 : 0 < y) (hy : y ≤ 2 ^ 210) :
    M * y + 1 ≤ 2 ^ 256 / (2 ^ 256 / (M * y + 1)) ∧
      2 ^ 256 / (2 ^ 256 / (M * y + 1)) < M * y + 1 + y := by
  have hmod := Nat.div_add_mod (2 ^ 256) (M * y + 1)
  have hr := Nat.mod_lt (2 ^ 256) (show 0 < M * y + 1 by omega)
  have hMy : M * y ≤ (2 ^ 23 - 1) * y := Nat.mul_le_mul_right y (by omega)
  have hQ : 2 ^ 23 ≤ 2 ^ 256 / (M * y + 1) := (Nat.le_div_iff_mul_le (by omega)).mpr (by omega)
  generalize 2 ^ 256 / (M * y + 1) = Q at hmod hQ ⊢
  generalize 2 ^ 256 % (M * y + 1) = r at hmod hr
  have hQy := Nat.mul_le_mul_right y hQ
  constructor
  · rw [Nat.le_div_iff_mul_le (by omega)]; omega
  · rw [Nat.div_lt_iff_lt_mul (by omega), Nat.add_mul, Nat.mul_comm y Q]; omega

/-- In the steady state, a block 30 to 59 seconds after a node whose bits are the compact form
of a number below `2^256`, with a target `T < 2^224` and the work of that target, gets the
node's bits back: the new target `2^256 / (2^256 / (T + 1)) - 1` lies in `[T, T + 256^K)`, where
`T = M * 256^K`, and truncates to `T`. -/
theorem calcNextRequiredDifficulty_steady {b : BlockChain} {P : BlockNode} {t : Time}
    (himg : ∃ n, 0 ≤ n ∧ n < 2 ^ 256 ∧ P.bits = BigToCompact n)
    (hT : 0 < CompactToBig P.bits) (hTp : CompactToBig P.bits ≤ b.chainParams.powLimit)
    (hT224 : CompactToBig P.bits < 2 ^ 224) (hw : P.workIncrement = some (CalcWork P.bits))
    (ht1 : 30 ≤ t.unix - P.timestamp.val) (ht2 : t.unix - P.timestamp.val ≤ 59) :
    calcNextRequiredDifficulty b (some P) t = .ok P.bits := by
  cases hadj : b.chainParams.noDifficultyAdjustment
  · rw [calcNextRequiredDifficulty_eq t hadj hw]
    obtain ⟨M, K, hM, hc, hT', hre⟩ := canonical_of_mem_image himg hT
    rw [hT'] at hTp hT224 hT
    have hy : (256 : Int) ^ K ≤ 2 ^ 210 := by
      rcases hc with rfl | hc
      · norm_num
      · have := mul_le_mul_of_nonneg_right (show (2 ^ 15 : Int) ≤ M by exact_mod_cast hc)
          (show (0 : Int) ≤ 256 ^ K by positivity)
        omega
    obtain ⟨hlo, hhi⟩ := @steady_quotient M (256 ^ K) hM (by positivity) (by exact_mod_cast hy)
    have hD : CalcWork P.bits = ((2 ^ 256 / (M * 256 ^ K + 1) : Nat) : Int) := by
      rw [CalcWork_of_pos (hT'.symm ▸ hT), hT']; push_cast; rfl
    generalize 2 ^ 256 / (M * 256 ^ K + 1) = Q at hD hlo hhi
    have hQ : 0 < Q := Nat.pos_of_ne_zero fun h0 => by rw [h0, Nat.div_zero] at hlo; omega
    have hq : (2 : Int) ^ 256 / Q = ((2 ^ 256 / Q : Nat) : Int) := by push_cast; rfl
    have hlo' : (M : Int) * 256 ^ K + 1 ≤ 2 ^ 256 / (Q : Int) := by rw [hq]; exact_mod_cast hlo
    have hhi' : 2 ^ 256 / (Q : Int) < M * 256 ^ K + 1 + 256 ^ K := by rw [hq]; exact_mod_cast hhi
    have hx : retargetFactor t P.timestamp = 0 := by simp only [retargetFactor]; omega
    simp only [hx, nextDifficulty, mul_zero, Int.zero_ediv, add_zero, hD]
    rw [if_neg (by omega), Except.ok.injEq]
    set v := nextTarget Q b.chainParams.powLimit
    have hv : (M * 256 ^ K : Int) ≤ v ∧ v < M * 256 ^ K + 256 ^ K := by
      simp only [v, nextTarget, target_eq (show (Q : Int) ≠ 0 by omega), le_min_iff, min_lt_iff]
      omega
    have htrunc := (isTruncation_of_lt hM hc hv.1 hv.2).unique
      (isTruncation_CompactToBig_BigToCompact (by omega) (by omega))
    rw [← BigToCompact_CompactToBig_BigToCompact (by omega) (by omega), ← htrunc, ← hT', hre]
  · simp [calcNextRequiredDifficulty, hadj, pure, Except.pure]

set_option maxRecDepth 10000 in
theorem calcNextRequiredDifficulty_steady_at :
    calcNextRequiredDifficulty .sample (some sampleParent) (Time.ofUnix 1500000030) =
      .ok sampleParent.bits :=
  calcNextRequiredDifficulty_steady ⟨CompactToBig 0x1d00ffff, by decide, by decide, by decide⟩
    (by decide) (by decide) (by decide) (by decide) (by decide) (by decide)

/-- A node with bits `0x01010001` and the work of its target 1, at height 0. They are the compact
form of `(2^16 + 1) * 256^254`, a number of 257 bytes: the exponent 257 wraps to 1 in the top
byte. -/
def wrappedExponentNode : BlockNode := ⟨⟨1⟩, 0, 0x01010001, 0, 2 ^ 255, none⟩

set_option maxRecDepth 10000 in
/-- Bits in the image of `BigToCompact` need not be canonical: after `wrappedExponentNode`, a
block 30 seconds later keeps the target 1 and gets its canonical bits `0x01010000`. -/
theorem calcNextRequiredDifficulty_wrapped_exponent :
    wrappedExponentNode.bits = BigToCompact ((2 ^ 16 + 1) * 256 ^ 254) ∧
      CompactToBig wrappedExponentNode.bits = 1 ∧
      1 ≤ BlockChain.sample.chainParams.powLimit ∧
      wrappedExponentNode.workIncrement = some (CalcWork wrappedExponentNode.bits) ∧
      (Time.ofUnix 30).unix - wrappedExponentNode.timestamp.val = 30 ∧
      calcNextRequiredDifficulty .sample (some wrappedExponentNode) (Time.ofUnix 30) =
        .ok 0x01010000 ∧
      (0x01010000 : UInt32) ≠ wrappedExponentNode.bits :=
  ⟨by decide, by decide, by decide, by decide, by decide, rfl, by decide⟩

/-! ### How far one block moves the target

The parent's work `D` brackets `2^256` between `D * (T + 1)` and `(D + 1) * (T + 1)`
(`CalcWork_bracket`), and the new target plus one is `2^256 / d` for the new difficulty `d`. The
divisor 128 and the clamp at `-99` keep `d` within `[D - ⌈99 D / 128⌉, D + D / 128]` for a block
at or after its parent, so one block moves the target by a bounded factor: a fast block makes it
strictly harder (`calcNextRequiredDifficulty_fast`), but by at most one part in 64
(`calcNextRequiredDifficulty_hardening`), and a block however late makes it at most five times
easier (`calcNextRequiredDifficulty_easing`). -/

theorem CalcWork_ge_128 {bits : UInt32} (h0 : 0 < CompactToBig bits)
    (h : CompactToBig bits < 2 ^ 249) : 128 ≤ CalcWork bits := by
  rw [CalcWork_of_pos h0, Int.le_ediv_iff_mul_le (by omega)]
  have : (2 : Int) ^ 256 = 2 ^ 249 * 128 := by norm_num
  omega

/-- A block less than 30 seconds after its parent always gets a strictly harder target, when the
parent's target `T` is below `2^249` and the parent's work is that of `T`: the factor is at least
1, so the new difficulty exceeds the work `D = 2^256 / (T + 1)` once `D ≥ 128`, and
`2^256 / (D + 1) ≤ T`. -/
theorem calcNextRequiredDifficulty_fast {b : BlockChain} {P : BlockNode} {t : Time}
    (hadj : b.chainParams.noDifficultyAdjustment = false) (hT : 0 < CompactToBig P.bits)
    (hT249 : CompactToBig P.bits < 2 ^ 249) (hw : P.workIncrement = some (CalcWork P.bits))
    (ht : t.unix - P.timestamp.val < 30) :
    ∃ c, calcNextRequiredDifficulty b (some P) t = .ok c ∧
      CompactToBig c < CompactToBig P.bits := by
  rw [calcNextRequiredDifficulty_eq t hadj hw]
  have hD128 := CalcWork_ge_128 hT hT249
  have hhi := (CalcWork_bracket hT).2
  generalize CompactToBig P.bits = T at hT hT249 hhi ⊢
  generalize CalcWork P.bits = D at hD128 hhi ⊢
  -- the work `D` is the largest with `D * (T + 1) ≤ 2^256`, so `2^256 / (D + 1) ≤ T`
  have hDT : 2 ^ 256 / (D + 1) < T + 1 := by
    rw [Int.ediv_lt_iff_lt_mul (by omega), mul_comm]; exact hhi
  have hd : D + 1 ≤ nextDifficulty D (retargetFactor t P.timestamp) := by
    have hx : 1 ≤ retargetFactor t P.timestamp := by simp only [retargetFactor]; omega
    have := @nextDifficulty_mono D 1 _ (by omega) hx
    simp only [nextDifficulty, DifficultyBoundDivisor, mul_one] at this ⊢
    omega
  generalize nextDifficulty D (retargetFactor t P.timestamp) = d at hd ⊢
  rw [if_neg (by omega)]
  refine ⟨_, rfl, ?_⟩
  have hv : nextTarget d b.chainParams.powLimit ≤ T - 1 := by
    have h := nextTarget_antitone b.chainParams.powLimit (by omega) hd
    simp only [nextTarget, target_eq (show D + 1 ≠ 0 by omega)] at h
    exact h.trans ((min_le_left _ _).trans (by omega))
  exact (CompactToBig_BigToCompact_nextTarget_le _ (by omega)).trans_lt (by omega)

set_option maxRecDepth 10000 in
theorem calcNextRequiredDifficulty_fast_at :
    ∃ c, calcNextRequiredDifficulty .sample (some sampleParent) (Time.ofUnix 1500000010) =
      .ok c ∧ CompactToBig c < CompactToBig sampleParent.bits :=
  calcNextRequiredDifficulty_fast (by decide) (by decide) (by decide) (by decide) (by decide)

/-- A block at or after its parent's time gets at least `63/64` of the parent's target `T`, for
`T` from 128 up to the limit and below `2^249`, with the parent's work: the new difficulty is at
most `129/128` of the work, so `128 T ≤ 129 * (2^256 / d)`, and the encoding keeps all but
`2^-15` of the new target. Without adjustment the bits are the parent's. -/
theorem calcNextRequiredDifficulty_hardening {b : BlockChain} {P : BlockNode} {t : Time}
    (hT : 128 ≤ CompactToBig P.bits) (hTp : CompactToBig P.bits ≤ b.chainParams.powLimit)
    (hT249 : CompactToBig P.bits < 2 ^ 249) (hw : P.workIncrement = some (CalcWork P.bits))
    (ht : P.timestamp.val ≤ t.unix) :
    ∃ c, calcNextRequiredDifficulty b (some P) t = .ok c ∧
      63 * CompactToBig P.bits ≤ 64 * CompactToBig c := by
  cases hadj : b.chainParams.noDifficultyAdjustment
  · rw [calcNextRequiredDifficulty_eq t hadj hw]
    have hD128 := CalcWork_ge_128 (by omega) hT249
    have hlo := (CalcWork_bracket (show 0 < CompactToBig P.bits by omega)).1
    have hd := nextDifficulty_le (CalcWork_mem P.bits).1 (retargetFactor_le_one ht)
    have hd0 := nextDifficulty_lower (CalcWork_mem P.bits).1 (neg_99_le_retargetFactor t P.timestamp)
    generalize CompactToBig P.bits = T at hT hTp hT249 hlo ⊢
    generalize CalcWork P.bits = D at hD128 hlo hd hd0 ⊢
    generalize nextDifficulty D (retargetFactor t P.timestamp) = d at hd hd0 ⊢
    rw [if_neg (by omega)]
    refine ⟨_, rfl, ?_⟩
    have hq0 : 0 ≤ 2 ^ 256 / d := Int.ediv_nonneg (by norm_num) (by omega)
    have hq1 : 2 ^ 256 / d ≤ 2 ^ 256 := Int.ediv_le_self _ (by norm_num)
    -- `2^256 < (q + 1) d` and `128 d ≤ 129 D` give `128 (T + 1) < 129 (q + 1)`
    have hq : 128 * T ≤ 129 * (2 ^ 256 / d) := by
      have h1 := Int.lt_ediv_add_one_mul_self (2 ^ 256) (show 0 < d by omega)
      generalize 2 ^ 256 / d = q at hq0 h1 ⊢
      by_contra hc
      have h2 := mul_le_mul_of_nonneg_left (show 128 * d ≤ 129 * D by omega)
        (show 0 ≤ q + 1 by omega)
      have h3 := mul_le_mul_of_nonneg_left (show 129 * (q + 1) ≤ 128 * (T + 1) by omega)
        (show 0 ≤ D by omega)
      linarith only [hlo, h1, h2, h3]
    have hv := CompactToBig_BigToCompact_ge (n := nextTarget d b.chainParams.powLimit)
    simp only [nextTarget, target_eq (show d ≠ 0 by omega)] at hv ⊢
    have := hv (by simp only [le_min_iff]; omega) (by simp only [min_lt_iff]; omega)
    generalize CompactToBig (BigToCompact _) = w at this ⊢
    simp only [min_def] at this
    split_ifs at this <;> omega
  · exact ⟨P.bits, by simp [calcNextRequiredDifficulty, hadj, pure, Except.pure], by omega⟩

set_option maxRecDepth 10000 in
theorem calcNextRequiredDifficulty_hardening_at :
    ∃ c, calcNextRequiredDifficulty .sample (some sampleParent) (Time.ofUnix 1500000000) =
      .ok c ∧ 63 * CompactToBig sampleParent.bits ≤ 64 * CompactToBig c :=
  calcNextRequiredDifficulty_hardening (by decide) (by decide) (by decide) (by decide) (by decide)

/-- However late a block arrives, its target is at most five times the parent's, for a parent
target `T` from 7 up to `2^249` with its work: the clamp keeps `128 d` above `29 D - 127`, so
`2^256 / d ≤ 5 T + 1`. Without adjustment the bits are the parent's. -/
theorem calcNextRequiredDifficulty_easing {b : BlockChain} {P : BlockNode} (t : Time)
    (hT : 7 ≤ CompactToBig P.bits) (hT249 : CompactToBig P.bits < 2 ^ 249)
    (hw : P.workIncrement = some (CalcWork P.bits)) :
    ∃ c, calcNextRequiredDifficulty b (some P) t = .ok c ∧
      CompactToBig c ≤ 5 * CompactToBig P.bits := by
  cases hadj : b.chainParams.noDifficultyAdjustment
  · rw [calcNextRequiredDifficulty_eq t hadj hw]
    have hD128 := CalcWork_ge_128 (by omega) hT249
    have hhi := (CalcWork_bracket (show 0 < CompactToBig P.bits by omega)).2
    have hd := nextDifficulty_lower (CalcWork_mem P.bits).1 (neg_99_le_retargetFactor t P.timestamp)
    generalize CompactToBig P.bits = T at hT hT249 hhi ⊢
    generalize CalcWork P.bits = D at hD128 hhi hd ⊢
    generalize nextDifficulty D (retargetFactor t P.timestamp) = d at hd ⊢
    rw [if_neg (by omega)]
    refine ⟨_, rfl, ?_⟩
    -- `128 (D + 1) (T + 1) ≤ (5 T + 2) (29 D - 127) ≤ 128 (5 T + 2) d` once `T ≥ 7`, `D ≥ 128`
    have hq : 2 ^ 256 / d < 5 * T + 2 := by
      rw [Int.ediv_lt_iff_lt_mul (by omega)]
      have h1 := mul_le_mul_of_nonneg_left (show 29 * D - 127 ≤ 128 * d by omega)
        (show 0 ≤ 5 * T + 2 by omega)
      have h2 := mul_nonneg (show 0 ≤ T - 7 by omega) (show 0 ≤ 17 * D - 763 by omega)
      linarith only [hhi, hD128, h1, h2]
    calc CompactToBig (BigToCompact (nextTarget d b.chainParams.powLimit))
        ≤ nextTarget d b.chainParams.powLimit :=
          CompactToBig_BigToCompact_nextTarget_le _ (by omega)
      _ ≤ 2 ^ 256 / d - 1 := by
          simp only [nextTarget, target_eq (show d ≠ 0 by omega)]; exact min_le_left _ _
      _ ≤ 5 * T := by omega
  · exact ⟨P.bits, by simp [calcNextRequiredDifficulty, hadj, pure, Except.pure], by omega⟩

set_option maxRecDepth 10000 in
theorem calcNextRequiredDifficulty_easing_at :
    ∃ c, calcNextRequiredDifficulty .sample (some sampleParent) (Time.ofUnix 1500100000) =
      .ok c ∧ CompactToBig c ≤ 5 * CompactToBig sampleParent.bits :=
  calcNextRequiredDifficulty_easing _ (by decide) (by decide) (by decide)

end Classzz
