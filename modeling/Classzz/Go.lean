import Mathlib.Tactic.Positivity

/-! The parts of Go's semantics the validator relies on: wrapping `int32` and `int64`
arithmetic, and the three ways a call ends without a value (a rule error, another error value,
a panic). A Go function returning `(T, error)` is modelled as `Except Fault T`. -/

namespace Classzz

/-- `z` reduced to a two's-complement `w`-bit integer, as Go's fixed-width arithmetic does. -/
def wrap (w : Nat) (z : Int) : Int := (z + 2 ^ (w - 1)) % 2 ^ w - 2 ^ (w - 1)

theorem wrap_lo (w : Nat) (z : Int) : -2 ^ (w - 1) ≤ wrap w z := by
  have : (0 : Int) ≤ (z + 2 ^ (w - 1)) % 2 ^ w := Int.emod_nonneg _ (by positivity)
  unfold wrap
  omega

theorem wrap_hi (w : Nat) (z : Int) : wrap w z < 2 ^ (w - 1) := by
  have h1 : (z + 2 ^ (w - 1)) % 2 ^ w < 2 ^ w := Int.emod_lt_of_pos _ (by positivity)
  have h2 : (2 : Int) ^ w ≤ 2 * 2 ^ (w - 1) := by
    rcases w with _ | w
    · norm_num
    · simp [pow_succ]; omega
  unfold wrap
  omega

theorem wrap_of_fits {w : Nat} {z : Int} (hw : 0 < w) (lo : -2 ^ (w - 1) ≤ z)
    (hi : z < 2 ^ (w - 1)) : wrap w z = z := by
  obtain ⟨v, rfl⟩ : ∃ v, w = v + 1 := ⟨w - 1, by omega⟩
  simp only [wrap, Nat.add_sub_cancel, pow_succ] at *
  rw [Int.emod_eq_of_lt (by omega) (by omega)]
  omega

/-- A two's-complement `w`-bit integer. Go's `int32` is `Signed 32`; its `int64`, and `int`,
which is 64 bits wide on the platforms the node runs on, are `Signed 64`. -/
structure Signed (w : Nat) where
  val : Int
  lo : -2 ^ (w - 1) ≤ val
  hi : val < 2 ^ (w - 1)

abbrev Int64 := Signed 64

abbrev Int32 := Signed 32

namespace Signed

variable {w : Nat}

@[ext] theorem ext {a b : Signed w} (h : a.val = b.val) : a = b := by
  cases a; cases b; cases h; rfl

instance : DecidableEq (Signed w) := fun a b =>
  decidable_of_iff (a.val = b.val) ⟨ext, fun h => h ▸ rfl⟩

/-- The conversion `intw(z)`: the low `w` bits of `z`, read as a signed number. -/
def ofInt (z : Int) : Signed w := ⟨wrap w z, wrap_lo w z, wrap_hi w z⟩

instance : OfNat (Signed w) n := ⟨ofInt n⟩
instance : Neg (Signed w) := ⟨fun a => ofInt (-a.val)⟩
instance : Add (Signed w) := ⟨fun a b => ofInt (a.val + b.val)⟩
instance : Sub (Signed w) := ⟨fun a b => ofInt (a.val - b.val)⟩
instance : Mul (Signed w) := ⟨fun a b => ofInt (a.val * b.val)⟩
/-- Go's `/` on signed integers truncates toward zero. -/
instance : Div (Signed w) := ⟨fun a b => ofInt (a.val.tdiv b.val)⟩
instance : LT (Signed w) := ⟨fun a b => a.val < b.val⟩
instance : LE (Signed w) := ⟨fun a b => a.val ≤ b.val⟩
instance (a b : Signed w) : Decidable (a < b) := inferInstanceAs (Decidable (a.val < b.val))
instance (a b : Signed w) : Decidable (a ≤ b) := inferInstanceAs (Decidable (a.val ≤ b.val))
instance : ToString (Signed w) := ⟨fun a => toString a.val⟩
instance : Repr (Signed w) := ⟨fun a _ => repr a.val⟩

@[simp] theorem val_ofInt (z : Int) : (ofInt z : Signed w).val = wrap w z := rfl
@[simp] theorem val_ofNat (n : Nat) : (OfNat.ofNat n : Signed w).val = wrap w n := rfl
@[simp] theorem val_neg (a : Signed w) : (-a).val = wrap w (-a.val) := rfl
@[simp] theorem val_add (a b : Signed w) : (a + b).val = wrap w (a.val + b.val) := rfl
@[simp] theorem val_sub (a b : Signed w) : (a - b).val = wrap w (a.val - b.val) := rfl
@[simp] theorem val_mul (a b : Signed w) : (a * b).val = wrap w (a.val * b.val) := rfl
@[simp] theorem val_div (a b : Signed w) : (a / b).val = wrap w (a.val.tdiv b.val) := rfl
@[simp] theorem lt_iff (a b : Signed w) : a < b ↔ a.val < b.val := Iff.rfl
@[simp] theorem le_iff (a b : Signed w) : a ≤ b ↔ a.val ≤ b.val := Iff.rfl

theorem not_le_of_lt {a b : Signed w} (h : a < b) : ¬ b ≤ a := by
  simp only [lt_iff, le_iff] at *; omega

theorem ne_of_lt {a b : Signed w} (h : a < b) : b ≠ a := fun he => by
  rw [he, lt_iff] at h; omega

theorem val_sub_of_fits {a b : Signed w} (hw : 0 < w) (lo : -2 ^ (w - 1) ≤ a.val - b.val)
    (hi : a.val - b.val < 2 ^ (w - 1)) : (a - b).val = a.val - b.val :=
  wrap_of_fits hw lo hi

theorem val_sub_of_nonneg {a b : Signed w} (hw : 0 < w) (ha : 0 ≤ a.val) (hb : 0 ≤ b.val) :
    (a - b).val = a.val - b.val :=
  val_sub_of_fits hw (by have := b.hi; omega) (by have := a.hi; omega)

theorem val_zero : (0 : Int64).val = 0 := rfl

theorem val_lo (a : Int64) : -2 ^ 63 ≤ a.val := a.lo
theorem val_hi (a : Int64) : a.val < 2 ^ 63 := a.hi

theorem val_add_of_fits (a b : Int64) (lo : -2 ^ 63 ≤ a.val + b.val)
    (hi : a.val + b.val < 2 ^ 63) : (a + b).val = a.val + b.val :=
  wrap_of_fits (by norm_num) lo hi

theorem val_add_of_nonneg {a b : Int64} (ha : 0 ≤ a.val) (hb : 0 ≤ b.val) :
    (a + b).val = a.val + b.val ∨ ((a + b).val < 0 ∧ 2 ^ 63 ≤ a.val + b.val) := by
  have := a.val_hi; have := b.val_hi
  by_cases h : a.val + b.val < 2 ^ 63
  · exact .inl (val_add_of_fits a b (by omega) h)
  · refine .inr ⟨?_, by omega⟩
    simp only [val_add, wrap]
    omega

@[simp] theorem add_zero (a : Int64) : a + 0 = a := by
  have := a.val_lo; have := a.val_hi
  ext; rw [val_add_of_fits] <;> simp only [val_zero] <;> omega

end Signed

/-- The error codes of the rule errors that the modelled checks return (`ErrorCode` of the
blockchain package). -/
inductive ErrorCode
  | errDuplicateTx
  | errBlockTooBig
  | errNoTransactions
  | errNoTxInputs
  | errNoTxOutputs
  | errTxTooBig
  | errTxTooSmall
  | errTxTooManySigOps
  | errBadTxOutValue
  | errDuplicateTxInputs
  | errBadTxInput
  | errMissingTxOut
  | errSpentTxOut
  | errImmatureSpend
  | errSpendTooHigh
  | errBadFees
  | errTooManySigOps
  | errFirstTxNotCoinbase
  | errMultipleCoinbases
  | errBadCoinbaseScriptLen
  | errBadCoinbaseValue
  | errMissingCoinbaseHeight
  | errBadCoinbaseHeight
  | errUnexpectedDifficulty
  | errHighHash
  | errInvalidTime
  | errTimeTooOld
  | errTimeTooNew
  | errBadMerkleRoot
  | errInvalidTxOrder
  | errBadCheckpoint
  | errForkTooOld
  | errPrevBlockNotBest
  | errUnfinalizedTx
  deriving DecidableEq, Repr

/-- How a Go call ends when it does not return normally. -/
inductive Fault
  /-- A `RuleError`: a consensus rule was broken. -/
  | rule (code : ErrorCode) (description : String)
  /-- Any other error value: `errors.New`, an `AssertError`, or an error passed up from a
  collaborator such as the utxo cache or a foreign-chain client. -/
  | error (text : String)
  /-- A run-time panic: the node crashes instead of returning. -/
  | panic
  deriving DecidableEq, Repr

/-- `ruleError(c, desc)`. -/
def ruleError (c : ErrorCode) (desc : String) : Fault := .rule c desc

/-- The slice read `xs[i]`, which panics when `i` is out of range. -/
def index {α : Type} (xs : List α) (i : Nat) : Except Fault α :=
  match xs[i]? with
  | some a => .ok a
  | none => .error .panic

theorem index_of_lt {α : Type} {xs : List α} {i : Nat} (h : i < xs.length) :
    index xs i = .ok xs[i] := by
  simp [index, List.getElem?_eq_getElem h]

theorem index_of_le {α : Type} {xs : List α} {i : Nat} (h : xs.length ≤ i) :
    index xs i = .error .panic := by
  simp [index, List.getElem?_eq_none h]

theorem bind_eq_ok {ε α β : Type} {x : Except ε α} {f : α → Except ε β} {b : β} :
    x >>= f = .ok b ↔ ∃ a, x = .ok a ∧ f a = .ok b := by
  cases x <;> simp [bind, Except.bind]

theorem bind_unit_eq_ok {ε β : Type} {x : Except ε Unit} {f : Unit → Except ε β} {b : β} :
    x >>= f = .ok b ↔ x = .ok () ∧ f () = .ok b := by
  rw [bind_eq_ok]
  exact ⟨fun ⟨(), h⟩ => h, fun h => ⟨(), h⟩⟩

theorem ite_throw_eq_ok {ε α : Type} {c : Prop} [Decidable c] {e : ε} {x : Except ε α} {a : α} :
    (if c then throw e else x) = .ok a ↔ ¬c ∧ x = .ok a := by
  split_ifs <;> simp_all [throw, throwThe, MonadExceptOf.throw]

theorem bind_ok {ε α β : Type} (a : α) (f : α → Except ε β) :
    (Except.ok a : Except ε α) >>= f = f a := rfl

theorem bind_error {ε α β : Type} (e : ε) (f : α → Except ε β) :
    (Except.error e : Except ε α) >>= f = .error e := rfl

theorem mapM_eq_ok_of_forall {ε α β : Type} {g : α → Except ε β} {P : β → α → Prop} :
    ∀ {xs : List α}, (∀ x ∈ xs, ∃ y, g x = .ok y ∧ P y x) →
      ∃ ys, xs.mapM g = .ok ys ∧ List.Forall₂ P ys xs
  | [], _ => ⟨[], rfl, .nil⟩
  | x :: xs, h => by
    obtain ⟨y, hy, hp⟩ := h x (List.mem_cons_self _ _)
    obtain ⟨ys, hys, hps⟩ := mapM_eq_ok_of_forall fun x' hx' => h x' (List.mem_cons_of_mem _ hx')
    exact ⟨y :: ys, by rw [List.mapM_cons, hy, hys]; rfl, .cons hp hps⟩

/-! ### Calls that fail only with rule errors -/

/-- The text of an error, as `err.Error()` gives it. -/
def Fault.text : Fault → String
  | .rule _ d => d
  | .error t => t
  | .panic => ""

/-- A rule error, as opposed to another error value or a panic. -/
def Fault.IsRule : Fault → Prop
  | .rule _ _ => True
  | _ => False

/-- Every way `x` can fail is a rule error: it neither panics nor reports another error. -/
def RuleOnly {α : Type} (x : Except Fault α) : Prop := ∀ e, x = .error e → e.IsRule

namespace RuleOnly

variable {α β : Type}

theorem pure (a : α) : RuleOnly (Pure.pure a : Except Fault α) := by
  intro e h; cases h

theorem ok (a : α) : RuleOnly (Except.ok a : Except Fault α) := by
  intro e h; cases h

theorem rule (c : ErrorCode) (d : String) :
    RuleOnly (throw (ruleError c d) : Except Fault α) := by
  intro e h; cases h; trivial

theorem bind {x : Except Fault α} {f : α → Except Fault β} (hx : RuleOnly x)
    (hf : ∀ a, x = .ok a → RuleOnly (f a)) : RuleOnly (x >>= f) := by
  cases hx' : x with
  | error e => intro e' h; cases h; exact hx e hx'
  | ok a => exact hf a hx'

theorem ite {p : Prop} [Decidable p] {x y : Except Fault α} (hx : p → RuleOnly x)
    (hy : ¬p → RuleOnly y) : RuleOnly (if p then x else y) := by
  split
  · exact hx ‹_›
  · exact hy ‹_›

theorem not_panic {x : Except Fault α} (h : RuleOnly x) : x ≠ .error .panic :=
  fun hp => h _ hp

end RuleOnly

/-! ### The codes of the rule errors a call can return -/

/-- Every rule error `x` can fail with has its code in `cs`. Panics and other error values are
not constrained. -/
def RuleCodes {α : Type} (cs : List ErrorCode) (x : Except Fault α) : Prop :=
  ∀ c d, x = .error (.rule c d) → c ∈ cs

namespace RuleCodes

variable {α β : Type} {cs : List ErrorCode}

theorem pure (a : α) : RuleCodes cs (Pure.pure a : Except Fault α) := by
  intro c d h; cases h

theorem ok (a : α) : RuleCodes cs (Except.ok a : Except Fault α) := by
  intro c d h; cases h

theorem rule {c : ErrorCode} (hc : c ∈ cs) (d : String) :
    RuleCodes cs (throw (ruleError c d) : Except Fault α) := by
  intro c' d' h; cases h; exact hc

theorem error (e : String) : RuleCodes cs (throw (.error e) : Except Fault α) := by
  intro c d h; cases h

theorem panic : RuleCodes cs (Except.error .panic : Except Fault α) := by
  intro c d h; cases h

theorem bind {x : Except Fault α} {f : α → Except Fault β} (hx : RuleCodes cs x)
    (hf : ∀ a, x = .ok a → RuleCodes cs (f a)) : RuleCodes cs (x >>= f) := by
  cases hx' : x with
  | error e => intro c d h; cases h; exact hx c d hx'
  | ok a => exact hf a hx'

theorem ite {p : Prop} [Decidable p] {x y : Except Fault α} (hx : p → RuleCodes cs x)
    (hy : ¬p → RuleCodes cs y) : RuleCodes cs (if p then x else y) := by
  split
  · exact hx ‹_›
  · exact hy ‹_›

theorem mono {cs' : List ErrorCode} {x : Except Fault α} (h : RuleCodes cs x) (hsub : cs ⊆ cs') :
    RuleCodes cs' x :=
  fun c d hx => hsub (h c d hx)

theorem index {γ : Type} (xs : List γ) (i : Nat) : RuleCodes cs (Classzz.index xs i) := by
  unfold Classzz.index; split
  · exact ok _
  · exact panic

theorem ne_rule {x : Except Fault α} (h : RuleCodes cs x) {c : ErrorCode} (hc : c ∉ cs)
    (d : String) : x ≠ .error (.rule c d) :=
  fun hx => hc (h c d hx)

end RuleCodes

def hex64 (n : Int) : String :=
  let digits := Nat.toDigits 16 n.natAbs
  let sign := if n < 0 then "-" else ""
  sign ++ String.mk (List.replicate (64 - digits.length - sign.length) '0' ++ digits)

end Classzz
