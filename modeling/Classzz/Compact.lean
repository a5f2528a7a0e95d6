import Mathlib.Tactic.NormNum.Pow
import Classzz.Wire

/-! The compact form of 256-bit targets (`CompactToBig`, `BigToCompact`) and the work of a target
(`CalcWork`). On `[0, 2^256)` the codec keeps the top 23 bits of a number (`IsTruncation`); on
negative numbers the encoder rounds the magnitude up. -/

namespace Classzz

/-- `HashToBig`: the hash's bytes, reversed, read as a big-endian number. -/
def HashToBig (hash : Hash) : Int := hash.val

/-- `CompactToBig`. -/
def CompactToBig (compact : UInt32) : Int :=
  let c := compact.toNat
  -- `compact & 0x007fffff`, `compact & 0x00800000 != 0`, `compact >> 24`
  let mantissa := c % 0x800000
  let isNegative := c / 0x800000 % 2 = 1
  let exponent := c / 0x1000000
  let bn : Nat :=
    if exponent ≤ 3 then mantissa / 256 ^ (3 - exponent) else mantissa * 256 ^ (exponent - 3)
  if isNegative then -bn else bn

/-- The number of bytes `len(n.Bytes())` of `n`, found within `fuel` steps. -/
def byteLenAux : Nat → Nat → Nat
  | 0, _ => 0
  | fuel + 1, n => if n = 0 then 0 else byteLenAux fuel (n / 256) + 1

/-- `len(n.Bytes())` for the magnitude `n`. -/
def byteLen (n : Nat) : Nat := byteLenAux n n

/-- `BigToCompact`. The mantissa of a number of more than three bytes is read from
`n.Rsh(...)`, which rounds toward minus infinity, so a negative number's mantissa is its
magnitude rounded up. -/
def BigToCompact (n : Int) : UInt32 :=
  if n = 0 then 0
  else
    let exponent := byteLen n.natAbs
    -- `uint32(n.Bits()[0]) << 8*(3-exponent)`, or `uint32(tn.Rsh(tn, 8*(exponent-3)).Bits()[0])`
    let mantissa : Nat :=
      if exponent ≤ 3 then n.natAbs % 2 ^ 32 * 256 ^ (3 - exponent) % 2 ^ 32
      else (n / 256 ^ (exponent - 3)).natAbs % 2 ^ 32
    -- `if mantissa&0x00800000 != 0 { mantissa >>= 8; exponent++ }`
    let (mantissa, exponent) :=
      if mantissa / 0x800000 % 2 = 1 then (mantissa / 256, exponent + 1) else (mantissa, exponent)
    let compact := exponent * 2 ^ 24 % 2 ^ 32 ||| mantissa
    UInt32.ofNat (if n < 0 then compact ||| 0x00800000 else compact)

/-- `CalcWork`: `2^256 / (target + 1)`, and zero for a target that is not positive. -/
def CalcWork (bits : UInt32) : Int :=
  let difficultyNum := CompactToBig bits
  if difficultyNum ≤ 0 then 0 else 2 ^ 256 / (difficultyNum + 1)

theorem CalcWork_of_pos {bits : UInt32} (h : 0 < CompactToBig bits) :
    CalcWork bits = 2 ^ 256 / (CompactToBig bits + 1) := by
  simp [CalcWork, not_le.mpr h]

theorem CalcWork_mem (bits : UInt32) : 0 ≤ CalcWork bits ∧ CalcWork bits ≤ 2 ^ 255 := by
  simp only [CalcWork]
  split_ifs with h
  · norm_num
  · have hlt := (Int.ediv_lt_iff_lt_mul (show (0 : Int) < CompactToBig bits + 1 by omega)).mpr
      (show (2 : Int) ^ 256 < (2 ^ 255 + 1) * (CompactToBig bits + 1) by omega)
    exact ⟨Int.ediv_nonneg (by norm_num) (by omega), by omega⟩

theorem CalcWork_bracket {bits : UInt32} (h : 0 < CompactToBig bits) :
    CalcWork bits * (CompactToBig bits + 1) ≤ 2 ^ 256 ∧
      2 ^ 256 < (CalcWork bits + 1) * (CompactToBig bits + 1) := by
  rw [CalcWork_of_pos h]
  exact ⟨Int.ediv_mul_le _ (by omega), Int.lt_ediv_add_one_mul_self _ (by omega)⟩

/-! ### The byte length -/

theorem byteLenAux_zero : ∀ fuel, byteLenAux fuel 0 = 0
  | 0 => rfl
  | _ + 1 => rfl

theorem byteLenAux_bounds : ∀ fuel n, n ≤ fuel →
    n < 256 ^ byteLenAux fuel n ∧ (0 < n → 256 ^ byteLenAux fuel n ≤ 256 * n)
  | 0, n, h => by simp [byteLenAux]; omega
  | fuel + 1, n, h => by
    by_cases hn : n = 0
    · simp [byteLenAux, hn]
    have ih := byteLenAux_bounds fuel (n / 256) (by omega)
    simp only [byteLenAux, hn, if_false, pow_succ]
    refine ⟨(Nat.div_lt_iff_lt_mul (by norm_num)).mp ih.1, fun _ => ?_⟩
    by_cases hq : n / 256 = 0
    · simp [hq, byteLenAux_zero]; omega
    · have := ih.2 (Nat.pos_of_ne_zero hq)
      have := Nat.div_mul_le_self n 256
      omega

theorem byteLen_bounds {m : Nat} (hm : 0 < m) :
    0 < byteLen m ∧ 256 ^ (byteLen m - 1) ≤ m ∧ m < 256 ^ byteLen m := by
  obtain ⟨hlt, hle⟩ : m < 256 ^ byteLen m ∧ (0 < m → 256 ^ byteLen m ≤ 256 * m) :=
    byteLenAux_bounds m m le_rfl
  have hpos : 0 < byteLen m := Nat.pos_of_ne_zero fun h0 => by simp [h0] at hlt; omega
  have : 256 ^ byteLen m = 256 ^ (byteLen m - 1) * 256 := by
    rw [← pow_succ, Nat.sub_add_cancel hpos]
  exact ⟨hpos, by omega, hlt⟩

/-! ### The compact form of a positive number -/

theorem mantissa_of_le_three (m : Nat) {e : Nat} (he : e ≤ 3) :
    m * 2 ^ 24 / 256 ^ e = m * 256 ^ (3 - e) := by
  have : 2 ^ 24 = 256 ^ (3 - e) * 256 ^ e := by
    rw [← pow_add, Nat.sub_add_cancel he]; norm_num
  rw [this, ← Nat.mul_assoc, Nat.mul_div_cancel _ (by positivity)]

theorem mantissa_of_three_le (m : Nat) {e : Nat} (he : 3 ≤ e) :
    m * 2 ^ 24 / 256 ^ e = m / 256 ^ (e - 3) := by
  have : 256 ^ e = 256 ^ (e - 3) * 2 ^ 24 := by
    rw [show (2 : Nat) ^ 24 = 256 ^ 3 by norm_num, ← pow_add, Nat.sub_add_cancel he]
  rw [this, Nat.mul_div_mul_right _ _ (by positivity)]

theorem pack_eq_add {E mant : Nat} (hE : E < 256) (hm : mant < 2 ^ 24) :
    E * 2 ^ 24 % 2 ^ 32 ||| mant = E * 2 ^ 24 + mant := by
  rw [Nat.mod_eq_of_lt (by omega), Nat.mul_comm, Nat.mul_add_lt_is_or hm]

theorem BigToCompact_of_pos {m : Nat} (h0 : 0 < m) (h1 : m < 2 ^ 256) :
    ∃ E ≤ 33, 2 ^ 15 ≤ m * 2 ^ 24 / 256 ^ E ∧ m * 2 ^ 24 / 256 ^ E < 2 ^ 23 ∧
      BigToCompact m = UInt32.ofNat (E * 2 ^ 24 + m * 2 ^ 24 / 256 ^ E) := by
  obtain ⟨hpos, hlo, hhi⟩ := byteLen_bounds h0
  set e := byteLen m with he
  have he32 : e ≤ 32 := by
    by_contra h
    have : 256 ^ 32 ≤ 256 ^ (e - 1) := Nat.pow_le_pow_right (by norm_num) (by omega)
    have : (2 : Nat) ^ 256 = 256 ^ 32 := by norm_num
    omega
  have hr1 : 2 ^ 16 ≤ m * 2 ^ 24 / 256 ^ e := by
    rw [Nat.le_div_iff_mul_le (by positivity)]
    have : 256 ^ e = 256 ^ (e - 1) * 256 := by rw [← pow_succ, Nat.sub_add_cancel hpos]
    rw [this]; omega
  have hr2 : m * 2 ^ 24 / 256 ^ e < 2 ^ 24 := by
    rw [Nat.div_lt_iff_lt_mul (by positivity)]; omega
  have hmant : (if e ≤ 3 then m % 2 ^ 32 * 256 ^ (3 - e) % 2 ^ 32
      else ((m : Int) / 256 ^ (e - 3)).natAbs % 2 ^ 32) = m * 2 ^ 24 / 256 ^ e := by
    split_ifs with h3
    · rw [mantissa_of_le_three m h3] at hr2 ⊢
      have : 256 ^ e ≤ 256 ^ 3 := Nat.pow_le_pow_right (by norm_num) h3
      rw [Nat.mod_eq_of_lt (a := m) (by omega), Nat.mod_eq_of_lt (by omega)]
    · rw [mantissa_of_three_le m (by omega)] at hr2 ⊢
      rw [show ((m : Int) / 256 ^ (e - 3)) = ((m / 256 ^ (e - 3) : Nat) : Int) by push_cast; rfl,
        Int.natAbs_ofNat, Nat.mod_eq_of_lt (by omega)]
  simp only [BigToCompact, Int.natCast_eq_zero, h0.ne', if_false, Int.natAbs_ofNat, ← he, hmant]
  have hdiv : m * 2 ^ 24 / 256 ^ (e + 1) = m * 2 ^ 24 / 256 ^ e / 256 := by
    rw [pow_succ (256 : Nat) e, Nat.div_div_eq_div_mul]
  rw [if_neg (by omega)]
  by_cases hc : 2 ^ 23 ≤ m * 2 ^ 24 / 256 ^ e
  · have hbit : m * 2 ^ 24 / 256 ^ e / 8388608 % 2 = 1 := by omega
    refine ⟨e + 1, by omega, by omega, by omega, ?_⟩
    rw [if_pos hbit, hdiv, pack_eq_add (by omega) (by omega)]
  · have hbit : ¬ m * 2 ^ 24 / 256 ^ e / 8388608 % 2 = 1 := by omega
    refine ⟨e, by omega, by omega, by omega, ?_⟩
    rw [if_neg hbit, pack_eq_add (by omega) (by omega)]


theorem mantissa_exponent_unique {m E E' : Nat} (h1 : 2 ^ 15 ≤ m * 2 ^ 24 / 256 ^ E)
    (h2 : m * 2 ^ 24 / 256 ^ E < 2 ^ 23) (h1' : 2 ^ 15 ≤ m * 2 ^ 24 / 256 ^ E')
    (h2' : m * 2 ^ 24 / 256 ^ E' < 2 ^ 23) : E = E' := by
  have drop : ∀ {a b}, a < b → m * 2 ^ 24 / 256 ^ a < 2 ^ 23 → m * 2 ^ 24 / 256 ^ b < 2 ^ 15 := by
    intro a b hab ha
    calc m * 2 ^ 24 / 256 ^ b ≤ m * 2 ^ 24 / 256 ^ (a + 1) :=
          Nat.div_le_div_left (Nat.pow_le_pow_right (by norm_num) hab) (by positivity)
      _ = m * 2 ^ 24 / 256 ^ a / 256 := by rw [pow_succ (256 : Nat) a, Nat.div_div_eq_div_mul]
      _ < 2 ^ 15 := by omega
  rcases Nat.lt_trichotomy E E' with h | h | h
  · exact absurd (drop h h2) (by omega)
  · exact h
  · exact absurd (drop h h2') (by omega)

/-- `BigToCompact` of a positive `m < 2^256` packs the exponent `E` at which the mantissa
`m * 2^24 / 256^E` lies in `[2^15, 2^23)`. -/
theorem BigToCompact_eq_pack {m E : Nat} (h0 : 0 < m) (h1 : m < 2 ^ 256)
    (hlo : 2 ^ 15 ≤ m * 2 ^ 24 / 256 ^ E) (hhi : m * 2 ^ 24 / 256 ^ E < 2 ^ 23) :
    BigToCompact m = UInt32.ofNat (E * 2 ^ 24 + m * 2 ^ 24 / 256 ^ E) := by
  obtain ⟨E', -, hlo', hhi', h⟩ := BigToCompact_of_pos h0 h1
  rwa [mantissa_exponent_unique hlo hhi hlo' hhi']

theorem CompactToBig_pack {E mant : Nat} (hE : E < 256) (hm : mant < 2 ^ 23) :
    CompactToBig (UInt32.ofNat (E * 2 ^ 24 + mant)) =
      if E ≤ 3 then ((mant / 256 ^ (3 - E) : Nat) : Int) else ((mant * 256 ^ (E - 3) : Nat) : Int) := by
  have hc : (UInt32.ofNat (E * 2 ^ 24 + mant)).toNat = E * 2 ^ 24 + mant :=
    UInt32.toNat_ofNat_of_lt (by simp only [UInt32.size]; omega)
  have hmod : (E * 2 ^ 24 + mant) % 0x800000 = mant := by omega
  have hsign : ¬ (E * 2 ^ 24 + mant) / 0x800000 % 2 = 1 := by omega
  have hexp : (E * 2 ^ 24 + mant) / 0x1000000 = E := by omega
  simp only [CompactToBig, hc, hmod, hsign, hexp, if_false]
  split_ifs <;> rfl

theorem CompactToBig_pack_mantissa {m E : Nat} (hE : E ≤ 33) (hhi : m * 2 ^ 24 / 256 ^ E < 2 ^ 23) :
    CompactToBig (UInt32.ofNat (E * 2 ^ 24 + m * 2 ^ 24 / 256 ^ E)) =
      ((m / 256 ^ (E - 3) * 256 ^ (E - 3) : Nat) : Int) := by
  rw [CompactToBig_pack (by omega) hhi]
  split_ifs with h3
  · rw [mantissa_of_le_three m h3, Nat.mul_div_cancel _ (by positivity),
      Nat.sub_eq_zero_of_le h3]
    simp
  · rw [mantissa_of_three_le m (by omega)]

theorem mantissa_truncate (m E : Nat) :
    m / 256 ^ (E - 3) * 256 ^ (E - 3) * 2 ^ 24 / 256 ^ E = m * 2 ^ 24 / 256 ^ E := by
  by_cases h3 : E ≤ 3
  · simp [Nat.sub_eq_zero_of_le h3]
  · rw [mantissa_of_three_le _ (by omega), mantissa_of_three_le _ (by omega),
      Nat.mul_div_cancel _ (by positivity)]

/-- `v` is `n` with its mantissa cut to 23 bits: the largest `M * 256^k ≤ n` with
`M < 2^23`. -/
structure IsTruncation (n v : Int) : Prop where
  representable : ∃ M k : Nat, M < 2 ^ 23 ∧ v = M * 256 ^ k
  le : v ≤ n
  greatest : ∀ M k : Nat, M < 2 ^ 23 → (M * 256 ^ k : Int) ≤ n → (M * 256 ^ k : Int) ≤ v

namespace IsTruncation

variable {n n' v v' : Int}

theorem unique (h : IsTruncation n v) (h' : IsTruncation n v') : v = v' := by
  obtain ⟨M, k, hM, rfl⟩ := h.representable
  obtain ⟨M', k', hM', rfl⟩ := h'.representable
  exact le_antisymm (h'.greatest M k hM h.le) (h.greatest M' k' hM' h'.le)

theorem mono (h : IsTruncation n v) (h' : IsTruncation n' v') (hn : n ≤ n') : v ≤ v' := by
  obtain ⟨M, k, hM, rfl⟩ := h.representable
  exact h'.greatest M k hM (h.le.trans hn)

end IsTruncation

theorem representable_le_of_lt {M k M' k' : Nat} (hM' : M' < 2 ^ 23) (hcanon : k = 0 ∨ 2 ^ 15 ≤ M)
    (h : M' * 256 ^ k' < M * 256 ^ k + 256 ^ k) : M' * 256 ^ k' ≤ M * 256 ^ k := by
  rcases le_or_lt k k' with hk | hk
  · have hpow : 256 ^ k' = 256 ^ (k' - k) * 256 ^ k := by rw [← pow_add, Nat.sub_add_cancel hk]
    rw [hpow, ← Nat.mul_assoc] at h ⊢
    have : M' * 256 ^ (k' - k) < M + 1 :=
      Nat.lt_of_mul_lt_mul_right (a := 256 ^ k) (by rw [Nat.add_mul, Nat.one_mul]; exact h)
    exact Nat.mul_le_mul_right _ (by omega)
  · have hM : 2 ^ 15 ≤ M := hcanon.resolve_left (by omega)
    have hpow : 256 ^ k = 256 ^ (k - 1) * 256 := by rw [← pow_succ, Nat.sub_add_cancel (by omega)]
    calc M' * 256 ^ k' ≤ 2 ^ 23 * 256 ^ (k - 1) :=
          Nat.mul_le_mul (by omega) (Nat.pow_le_pow_right (by norm_num) (by omega))
      _ = 2 ^ 15 * 256 ^ k := by rw [hpow]; omega
      _ ≤ M * 256 ^ k := Nat.mul_le_mul_right _ hM

theorem isTruncation_of_lt {M k : Nat} {n : Int} (hM : M < 2 ^ 23) (hcanon : k = 0 ∨ 2 ^ 15 ≤ M)
    (hlo : (M * 256 ^ k : Int) ≤ n) (hhi : n < M * 256 ^ k + 256 ^ k) :
    IsTruncation n (M * 256 ^ k) where
  representable := ⟨M, k, hM, rfl⟩
  le := hlo
  greatest M' k' hM' h := by
    exact_mod_cast representable_le_of_lt hM' hcanon (by exact_mod_cast h.trans_lt hhi)

theorem CompactToBig_BigToCompact_of_pos {m : Nat} (h0 : 0 < m) (h1 : m < 2 ^ 256) :
    ∃ K, CompactToBig (BigToCompact m) = ((m / 256 ^ K * 256 ^ K : Nat) : Int) ∧
      m / 256 ^ K < 2 ^ 23 ∧ (K = 0 ∨ 2 ^ 15 ≤ m / 256 ^ K) := by
  obtain ⟨E, hE, hlo, hhi, h⟩ := BigToCompact_of_pos h0 h1
  refine ⟨E - 3, by rw [h, CompactToBig_pack_mantissa hE hhi], ?_⟩
  by_cases h3 : E ≤ 3
  · rw [mantissa_of_le_three m h3] at hhi
    have : m ≤ m * 256 ^ (3 - E) := Nat.le_mul_of_pos_right m (by positivity)
    simp only [Nat.sub_eq_zero_of_le h3, pow_zero, Nat.div_one, true_or, and_true]
    omega
  · rw [mantissa_of_three_le m (by omega)] at hlo hhi
    exact ⟨hhi, .inr hlo⟩

theorem isTruncation_CompactToBig_BigToCompact {n : Int} (h0 : 0 ≤ n) (h1 : n < 2 ^ 256) :
    IsTruncation n (CompactToBig (BigToCompact n)) := by
  obtain ⟨m, rfl⟩ := Int.eq_ofNat_of_zero_le h0
  rcases Nat.eq_zero_or_pos m with rfl | hm
  · exact @isTruncation_of_lt 0 0 0 (by norm_num) (.inl rfl) le_rfl (by norm_num)
  obtain ⟨K, hK, hM, hc⟩ := CompactToBig_BigToCompact_of_pos hm (by exact_mod_cast h1)
  have hpow : 0 < 256 ^ K := by positivity
  rw [hK, Nat.cast_mul, Nat.cast_pow, Nat.cast_ofNat]
  exact isTruncation_of_lt hM hc (by exact_mod_cast Nat.div_mul_le_self m (256 ^ K))
    (by exact_mod_cast Nat.lt_div_mul_add hpow)

theorem BigToCompact_CompactToBig_BigToCompact {n : Int} (h0 : 0 ≤ n) (h1 : n < 2 ^ 256) :
    BigToCompact (CompactToBig (BigToCompact n)) = BigToCompact n := by
  obtain ⟨m, rfl⟩ := Int.eq_ofNat_of_zero_le h0
  rcases Nat.eq_zero_or_pos m with rfl | hm
  · rfl
  have h1 : m < 2 ^ 256 := by exact_mod_cast h1
  obtain ⟨E, hE, hlo, hhi, h⟩ := BigToCompact_of_pos hm h1
  have hw := mantissa_truncate m E
  have hpos : 0 < m / 256 ^ (E - 3) * 256 ^ (E - 3) :=
    Nat.pos_of_ne_zero fun h0 => by rw [h0, Nat.zero_mul, Nat.zero_div] at hw; omega
  rw [h, CompactToBig_pack_mantissa hE hhi, BigToCompact_eq_pack hpos
    ((Nat.div_mul_le_self m _).trans_lt h1) (by rwa [hw]) (by rwa [hw]), hw]

theorem canonical_of_mem_image {bits : UInt32}
    (himg : ∃ n, 0 ≤ n ∧ n < 2 ^ 256 ∧ bits = BigToCompact n) (hT : 0 < CompactToBig bits) :
    ∃ M K : Nat, M < 2 ^ 23 ∧ (K = 0 ∨ 2 ^ 15 ≤ M) ∧ CompactToBig bits = M * 256 ^ K ∧
      BigToCompact (CompactToBig bits) = bits := by
  obtain ⟨n, hn0, hn1, rfl⟩ := himg
  obtain ⟨m, rfl⟩ := Int.eq_ofNat_of_zero_le hn0
  have hm : 0 < m := Nat.pos_of_ne_zero fun h0 => by
    subst h0; simp [BigToCompact, CompactToBig] at hT
  obtain ⟨K, hK, hM, hc⟩ := CompactToBig_BigToCompact_of_pos hm (by exact_mod_cast hn1)
  exact ⟨m / 256 ^ K, K, hM, hc, by rw [hK]; push_cast; rfl,
    BigToCompact_CompactToBig_BigToCompact hn0 hn1⟩

theorem CompactToBig_BigToCompact_truncates (n : Int) (h0 : 0 ≤ n) (h1 : n < 2 ^ 256) :
    IsTruncation n (CompactToBig (BigToCompact n)) ∧
      BigToCompact (CompactToBig (BigToCompact n)) = BigToCompact n :=
  ⟨isTruncation_CompactToBig_BigToCompact h0 h1, BigToCompact_CompactToBig_BigToCompact h0 h1⟩

theorem CompactToBig_BigToCompact_truncates_at :
    (0 : Int) ≤ 0x12345678 ∧ (0x12345678 : Int) < 2 ^ 256 ∧
      IsTruncation 0x12345678 (CompactToBig (BigToCompact 0x12345678)) ∧
      BigToCompact (CompactToBig (BigToCompact 0x12345678)) = BigToCompact 0x12345678 :=
  ⟨by omega, by omega, CompactToBig_BigToCompact_truncates 0x12345678 (by omega) (by omega)⟩

example : CompactToBig (BigToCompact 0x12345678) = 0x12345600 := by decide

/-! ### The precision of the encoding -/

/-- The decoded value `v` of `BigToCompact n`, for `n` in `[0, 2^256)`, has
`2^15 * n ≤ (2^15 + 1) * v`, since `n - v < 256^K` where the mantissa is at least `2^15` (or
`K = 0` and `v = n`). -/
theorem CompactToBig_BigToCompact_ge {n : Int} (h0 : 0 ≤ n) (h1 : n < 2 ^ 256) :
    2 ^ 15 * n ≤ (2 ^ 15 + 1) * CompactToBig (BigToCompact n) := by
  obtain ⟨m, rfl⟩ := Int.eq_ofNat_of_zero_le h0
  rcases Nat.eq_zero_or_pos m with rfl | hm
  · decide
  obtain ⟨K, hK, -, hc⟩ := CompactToBig_BigToCompact_of_pos hm (by exact_mod_cast h1)
  rw [hK]
  have hsplit := Nat.div_add_mod' m (256 ^ K)
  have hr := Nat.mod_lt m (show 0 < 256 ^ K by positivity)
  rcases hc with rfl | hc
  · simp only [pow_zero, Nat.div_one, Nat.mul_one]; omega
  · have hle := Nat.mul_le_mul_right (256 ^ K) hc
    generalize m / 256 ^ K * 256 ^ K = v at hsplit hle ⊢
    generalize m % 256 ^ K = r at hsplit hr
    omega

/-- Encoding loses less than one part in `2^15`: for `n` in `[0, 2^256)` the decoded value `v`
of `BigToCompact n` has `2^15 * (n - v) ≤ v`. -/
theorem CompactToBig_BigToCompact_precision {n : Int} (h0 : 0 ≤ n) (h1 : n < 2 ^ 256) :
    2 ^ 15 * (n - CompactToBig (BigToCompact n)) ≤ CompactToBig (BigToCompact n) := by
  have := CompactToBig_BigToCompact_ge h0 h1
  omega

theorem CompactToBig_BigToCompact_precision_at :
    2 ^ 15 * (0x12345678 - CompactToBig (BigToCompact 0x12345678)) ≤
      CompactToBig (BigToCompact 0x12345678) :=
  CompactToBig_BigToCompact_precision (by omega) (by omega)

/-! ### Negative numbers

For a negative `n` of more than three bytes `BigToCompact` reads the mantissa from `n.Rsh(...)`,
which floors, so it encodes the magnitude rounded up. Just below a byte boundary the rounded
mantissa is `2^24`: it carries into the exponent byte and leaves a zero mantissa, and `-n`
decodes to 0 (`CompactToBig_BigToCompact_neg_carry`). -/

theorem lor_mod_two_pow (a b n : Nat) : (a ||| b) % 2 ^ n = a % 2 ^ n ||| b % 2 ^ n :=
  Nat.eq_of_testBit_eq fun i => by
    simp only [Nat.testBit_mod_two_pow, Nat.testBit_or]
    cases decide (i < n) <;> simp

theorem uint32_toNat_ofNat (n : Nat) : (UInt32.ofNat n).toNat = n % 2 ^ 32 :=
  BitVec.toNat_ofNat _ _

theorem CompactToBig_of_mantissa_zero {c : UInt32} (h : c.toNat % 0x800000 = 0) :
    CompactToBig c = 0 := by
  simp [CompactToBig, h]

theorem byteLen_eq {m e : Nat} (he : 0 < e) (hlo : 256 ^ (e - 1) ≤ m) (hhi : m < 256 ^ e) :
    byteLen m = e := by
  have hm : 0 < m := lt_of_lt_of_le (by positivity) hlo
  obtain ⟨hpos, hlo', hhi'⟩ := byteLen_bounds hm
  rcases Nat.lt_trichotomy (byteLen m) e with h | h | h
  · have := Nat.pow_le_pow_right (show 0 < 256 by norm_num) (show byteLen m ≤ e - 1 by omega)
    omega
  · exact h
  · have := Nat.pow_le_pow_right (show 0 < 256 by norm_num) (show e ≤ byteLen m - 1 by omega)
    omega

/-- For `n` with `n / 256^k = 2^24 - 1` and a non-zero remainder, the floored shift of `-n` is
`-2^24`: the mantissa `2^24` has no bit 23, is not shifted down, and is OR-ed onto the
exponent byte. -/
theorem BigToCompact_neg_carry {n k : Nat} (hk : 1 ≤ k) (hlo : (2 ^ 24 - 1) * 256 ^ k < n)
    (hhi : n < 2 ^ 24 * 256 ^ k) :
    BigToCompact (-n) =
      UInt32.ofNat ((k + 3) * 2 ^ 24 % 2 ^ 32 ||| 2 ^ 24 ||| 0x00800000) := by
  have hpow : 0 < 256 ^ k := by positivity
  have hlen : byteLen n = k + 3 := byteLen_eq (by omega)
    (by rw [show k + 3 - 1 = k + 2 by omega, pow_add]; omega) (by rw [pow_add]; omega)
  have hlo' : (16777215 : Int) * 256 ^ k < n := by exact_mod_cast hlo
  have hhi' : (n : Int) < 16777216 * 256 ^ k := by exact_mod_cast hhi
  have hdiv : (-(n : Int)) / 256 ^ k = -2 ^ 24 := by
    have : -(n : Int) = (2 ^ 24 * 256 ^ k - n) + (-2 ^ 24) * 256 ^ k := by omega
    rw [this, Int.add_mul_ediv_right _ _ (by positivity),
      Int.ediv_eq_zero_of_lt (by omega) (by omega), zero_add]
  have hmant : ((2 ^ 24 : Int)).natAbs % 2 ^ 32 = 2 ^ 24 := rfl
  simp only [BigToCompact, neg_eq_zero, Int.natCast_eq_zero, Int.natAbs_neg, Int.natAbs_ofNat,
    hlen, if_neg (show n ≠ 0 by omega), if_neg (show ¬k + 3 ≤ 3 by omega), Nat.add_sub_cancel, hdiv,
    hmant, if_pos (show -(n : Int) < 0 by omega), show ¬2 ^ 24 / 8388608 % 2 = 1 by decide,
    if_false]

/-- Such a `-n` decodes to 0, while `n` decodes to a positive target: the codec is not
sign-magnitude on negative numbers. -/
theorem CompactToBig_BigToCompact_neg_carry {n k : Nat} (hk : 1 ≤ k)
    (hlo : (2 ^ 24 - 1) * 256 ^ k < n) (hhi : n < 2 ^ 24 * 256 ^ k) (h256 : n < 2 ^ 256) :
    CompactToBig (BigToCompact (-n)) = 0 ∧ 0 < CompactToBig (BigToCompact n) := by
  refine ⟨?_, ?_⟩
  · rw [BigToCompact_neg_carry hk hlo hhi]
    apply CompactToBig_of_mantissa_zero
    have hA : (k + 3) * 2 ^ 24 % 2 ^ 32 % 2 ^ 23 = 0 := by omega
    rw [uint32_toNat_ofNat, Nat.mod_mod_of_dvd _ (by norm_num),
      show (8388608 : Nat) = 2 ^ 23 from rfl, lor_mod_two_pow, lor_mod_two_pow, hA]
    rfl
  · have ht := isTruncation_CompactToBig_BigToCompact (Int.natCast_nonneg n)
      (by exact_mod_cast h256)
    have := ht.greatest 1 0 (by norm_num) (by push_cast; omega)
    push_cast at this
    omega

theorem CompactToBig_BigToCompact_neg_carry_at :
    (1 ≤ 1 ∧ (2 ^ 24 - 1) * 256 ^ 1 < 4294967295 ∧ 4294967295 < 2 ^ 24 * 256 ^ 1 ∧
      4294967295 < 2 ^ 256) ∧
    BigToCompact (-4294967295) = 0x05800000 ∧ BigToCompact 4294967295 ||| 0x00800000 = 0x0580ffff ∧
    CompactToBig (BigToCompact (-(4294967295 : Nat))) = 0 ∧
      0 < CompactToBig (BigToCompact (4294967295 : Nat)) :=
  ⟨by decide, by decide, by decide,
    @CompactToBig_BigToCompact_neg_carry 4294967295 1 le_rfl (by decide) (by decide) (by decide)⟩

end Classzz
