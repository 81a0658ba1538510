import Tacenta.Library.ByteString
import Tacenta.Library.Result

/-!
# Readers of byte strings

A reader consumes bytes from the front of a byte string and fails with an error. The lemmas
`run_*_eq_ok` say, for each basic reader and each way of combining readers, exactly which inputs
it accepts with which value and remainder. A decoder built from them is inverted by rewriting:
its success on an input is equivalent to the input being the encoding of the value, which is the
round trip in both directions.

## Main definitions

* `Reader`: readers that fail with errors of a fixed type.
* `Reader.take`, `Reader.takeExact`, `Reader.takeByte`, `Reader.takeU16`, `Reader.takeU32`,
  `Reader.takeU64`, `Reader.takeLp`, `Reader.takeLp16`, `Reader.takeArray`, `Reader.takeRest`,
  `Reader.finish`: the basic readers.
* `Reader.loop`: a counted loop over an accumulator.
* `ByteString.lpBytes`: a byte string after its length in four bytes.

## Main results

* `Reader.run_loop_eq_ok`: a loop with checks accepts exactly the encodings of checked lists.
-/

open ByteString

namespace ByteString

/-- A byte string after its length in four big-endian bytes. -/
def lpBytes (b : Bytes) : Bytes := u32Bytes b.length.toUInt32 ++ b

@[simp] theorem length_lpBytes (b : Bytes) : (lpBytes b).length = 4 + b.length := by
  rw [lpBytes, List.length_append, length_u32Bytes]

/-- A byte string after its length in two big-endian bytes. -/
def lp16Bytes (b : Bytes) : Bytes := u16Bytes b.length.toUInt16 ++ b

/-- Writing values one after the other, when each write appends the value's encoding. -/
theorem foldlM_append {ε α : Type} {put : Bytes → α → Except ε Bytes} {encode : α → Bytes}
    {xs : List α} (h : ∀ x ∈ xs, ∀ out, put out x = .ok (out ++ encode x)) (out : Bytes) :
    xs.foldlM put out = .ok (out ++ xs.flatMap encode) := by
  induction xs generalizing out with
  | nil => simp only [List.foldlM_nil, List.flatMap_nil, List.append_nil, pure, Except.pure]
  | cons x xs ih =>
    rw [List.foldlM_cons, h x List.mem_cons_self, Result.ok_bind,
      ih fun y hy => h y (List.mem_cons_of_mem _ hy), List.flatMap_cons, List.append_assoc]

/-- Writing values one after the other succeeds exactly when each value can be written. -/
theorem foldlM_eq_ok_iff {ε α : Type} {put : Bytes → α → Except ε Bytes} {encode : α → Bytes}
    {valid : α → Prop} (h : ∀ out x b, put out x = .ok b ↔ valid x ∧ b = out ++ encode x)
    {xs : List α} {out b : Bytes} :
    xs.foldlM put out = .ok b ↔ (∀ x ∈ xs, valid x) ∧ b = out ++ xs.flatMap encode := by
  induction xs generalizing out with
  | nil =>
    rw [List.foldlM_nil, Result.pure_eq_ok, List.flatMap_nil, List.append_nil, eq_comm]
    exact (and_iff_right fun x hx => absurd hx List.not_mem_nil).symm
  | cons x xs ih =>
    simp only [List.foldlM_cons, Result.bind_eq_ok, h, ih, List.forall_mem_cons,
      List.flatMap_cons]
    constructor
    · rintro ⟨_, ⟨hx, rfl⟩, hxs, rfl⟩
      exact ⟨⟨hx, hxs⟩, List.append_assoc _ _ _⟩
    · rintro ⟨⟨hx, hxs⟩, rfl⟩
      exact ⟨_, ⟨hx, rfl⟩, hxs, (List.append_assoc _ _ _).symm⟩

theorem length_flatMap_le {α : Type} {encode : α → Bytes} {bound : Nat} {xs : List α}
    (h : ∀ x ∈ xs, (encode x).length ≤ bound) : (xs.flatMap encode).length ≤ bound * xs.length := by
  induction xs with
  | nil => exact Nat.zero_le _
  | cons x xs ih =>
    have hx := h x List.mem_cons_self
    have hxs := ih fun y hy => h y (List.mem_cons_of_mem _ hy)
    rw [List.flatMap_cons, List.length_append, List.length_cons, Nat.mul_succ]
    omega

end ByteString

/-- A reader: it consumes bytes from the front of its input, or fails. -/
abbrev Reader (ε α : Type) := StateT Bytes (Except ε) α

namespace Reader

variable {ε α β σ : Type}

/-! ### Combining readers -/

variable {p : Reader ε α} {encode : α → Bytes} {u : Unit} {e : ε} {b : Bytes} {n : Nat}
  {xs : List α} {valid : α → Prop}

theorem run_bind_eq_ok {f : α → Reader ε β} {s rest : Bytes} {y : β} :
    (p >>= f).run s = .ok (y, rest) ↔
      ∃ x s', p.run s = .ok (x, s') ∧ (f x).run s' = .ok (y, rest) := by
  rw [StateT.run_bind, Result.bind_eq_ok]
  exact Prod.exists

/-- An encoding that a reader inverts is told from what follows it. -/
theorem eq_of_append_eq (hp : ∀ s x rest, p.run s = .ok (x, rest) ↔ s = encode x ++ rest)
    {x y : α} {rest rest' : Bytes} (h : encode x ++ rest = encode y ++ rest') :
    x = y ∧ rest = rest' := by
  have hread := (hp _ x rest).mpr rfl
  rw [(hp _ y rest').mpr h] at hread
  obtain ⟨rfl, rfl⟩ := Prod.mk.inj (Except.ok.inj hread)
  exact ⟨rfl, rfl⟩

theorem run_pure_eq_ok {s rest : Bytes} {x y : α} :
    (pure x : Reader ε α).run s = .ok (y, rest) ↔ x = y ∧ s = rest := by
  rw [StateT.run_pure, Result.pure_eq_ok, Prod.mk.injEq]

theorem run_lift_eq_ok {x : Except ε α} {s rest : Bytes} {y : α} :
    (liftM x : Reader ε α).run s = .ok (y, rest) ↔ x = .ok y ∧ s = rest := by
  cases x with
  | error e =>
    simp only [reduceCtorEq, false_and, iff_false]
    exact fun h => nomatch h
  | ok a =>
    rw [Except.ok.injEq]
    exact run_pure_eq_ok

theorem run_bind_of_ok {f : α → Reader ε β} {s rest : Bytes} {x : α}
    (h : p.run s = .ok (x, rest)) : (p >>= f).run s = (f x).run rest := by
  rw [StateT.run_bind, h]
  rfl

theorem run_lift_bind (x : Except ε α) (f : α → Reader ε β) (s : Bytes) :
    ((liftM x : Reader ε α) >>= f).run s = x >>= fun a => (f a).run s := by
  cases x <;> rfl

theorem run_refuseIf_eq_ok {c : Prop} [Decidable c] {s rest : Bytes} :
    (liftM (Result.refuseIf c e) : Reader ε Unit).run s = .ok (u, rest) ↔ ¬c ∧ s = rest := by
  rw [run_lift_eq_ok, Result.refuseIf_eq_ok]

theorem run'_eq_ok {s : Bytes} {x : α} :
    StateT.run' p s = .ok x ↔ ∃ rest, p.run s = .ok (x, rest) := by
  rw [StateT.run'_eq, Result.map_eq_ok]
  constructor
  · rintro ⟨⟨_, rest⟩, h, rfl⟩
    exact ⟨rest, h⟩
  · rintro ⟨rest, h⟩
    exact ⟨(x, rest), h, rfl⟩

/-! ### Basic readers -/

def take (e : ε) (n : Nat) : Reader ε Bytes := fun s =>
  if n ≤ s.length then .ok (s.take n, s.drop n) else .error e

theorem run_take_eq_ok {s rest : Bytes} :
    (take e n).run s = .ok (b, rest) ↔ b.length = n ∧ s = b ++ rest := by
  change (if n ≤ s.length then Except.ok (s.take n, s.drop n) else .error e) = _ ↔ _
  split
  · next h =>
    rw [Except.ok.injEq, Prod.mk.injEq]
    constructor
    · rintro ⟨rfl, rfl⟩
      exact ⟨List.length_take_of_le h, (List.take_append_drop n s).symm⟩
    · rintro ⟨rfl, rfl⟩
      exact ⟨List.take_left, List.drop_left⟩
  · next h =>
    simp only [reduceCtorEq, false_iff]
    rintro ⟨rfl, rfl⟩
    exact h (by rw [List.length_append]; exact Nat.le_add_right _ _)

/-- Take exactly the given bytes. -/
def takeExact (e : ε) (expected : Bytes) : Reader ε Unit := do
  let b ← take e expected.length
  Result.refuseIf (b ≠ expected) e

theorem run_takeExact_eq_ok {expected s rest : Bytes} :
    (takeExact e expected).run s = .ok (u, rest) ↔ s = expected ++ rest := by
  simp only [takeExact, run_bind_eq_ok, run_take_eq_ok, run_refuseIf_eq_ok, not_not]
  constructor
  · rintro ⟨b, s', ⟨-, rfl⟩, rfl, rfl⟩
    rfl
  · rintro rfl
    exact ⟨expected, rest, ⟨rfl, rfl⟩, rfl, rfl⟩

def takeByte (e : ε) : Reader ε UInt8 := do
  match (← take e 1).head? with
  | some byte => pure byte
  | none => throw e

theorem run_takeByte_eq_ok {s rest : Bytes} {byte : UInt8} :
    (takeByte e).run s = .ok (byte, rest) ↔ s = byte :: rest := by
  simp only [takeByte, run_bind_eq_ok, run_take_eq_ok]
  constructor
  · rintro ⟨b, s', ⟨hlen, rfl⟩, h⟩
    obtain ⟨c, rfl⟩ := List.length_eq_one_iff.mp hlen
    obtain ⟨rfl, rfl⟩ := run_pure_eq_ok.mp h
    rfl
  · rintro rfl
    exact ⟨[byte], rest, ⟨rfl, rfl⟩, run_pure_eq_ok.mpr ⟨rfl, rfl⟩⟩

/-- Take a byte string after its length in two bytes. -/
def takeLp16 (e : ε) : Reader ε Bytes := do
  let count ← take e 2
  take e (ofBe count)

theorem run_takeLp16_eq_ok {s rest : Bytes} :
    (takeLp16 e).run s = .ok (b, rest) ↔ b.length < 2 ^ 16 ∧ s = lp16Bytes b ++ rest := by
  simp only [takeLp16, run_bind_eq_ok, run_take_eq_ok]
  constructor
  · rintro ⟨count, s', ⟨hcount, rfl⟩, hlen, rfl⟩
    have hlt : ofBe count < 2 ^ 16 := ofBe_lt_of_length hcount
    refine ⟨hlen ▸ hlt, ?_⟩
    rw [lp16Bytes, eq_u16Bytes_iff.mpr ⟨hcount, congrArg Nat.toUInt16 hlen.symm⟩,
      List.append_assoc]
  · rintro ⟨hlen, rfl⟩
    refine ⟨u16Bytes b.length.toUInt16, b ++ rest, ⟨length_u16Bytes _, ?_⟩, ?_, rfl⟩
    · rw [lp16Bytes, List.append_assoc]
    · rw [u16Bytes, Nat.toUInt16, UInt16.toNat_ofNat', Nat.mod_eq_of_lt hlen, ofBe_toBe hlen]

/-- Take a 16-bit word. -/
def takeU16 (e : ε) : Reader ε UInt16 := do
  let b ← take e 2
  pure (ofBe b).toUInt16

theorem run_takeU16_eq_ok {s rest : Bytes} {x : UInt16} :
    (takeU16 e).run s = .ok (x, rest) ↔ s = u16Bytes x ++ rest := by
  simp only [takeU16, run_bind_eq_ok, run_take_eq_ok, run_pure_eq_ok]
  constructor
  · rintro ⟨b, s', ⟨hlen, rfl⟩, hx, rfl⟩
    rw [eq_u16Bytes_iff.mpr ⟨hlen, hx⟩]
  · rintro rfl
    exact ⟨u16Bytes x, rest, ⟨length_u16Bytes x, rfl⟩, (eq_u16Bytes_iff.mp rfl).2, rfl⟩

/-- Take a 32-bit word. -/
def takeU32 (e : ε) : Reader ε UInt32 := do
  let b ← take e 4
  pure (ofBe b).toUInt32

theorem run_takeU32_eq_ok {s rest : Bytes} {x : UInt32} :
    (takeU32 e).run s = .ok (x, rest) ↔ s = u32Bytes x ++ rest := by
  simp only [takeU32, run_bind_eq_ok, run_take_eq_ok, run_pure_eq_ok]
  constructor
  · rintro ⟨b, s', ⟨hlen, rfl⟩, hx, rfl⟩
    rw [eq_u32Bytes_iff.mpr ⟨hlen, hx⟩]
  · rintro rfl
    exact ⟨u32Bytes x, rest, ⟨length_u32Bytes x, rfl⟩, (eq_u32Bytes_iff.mp rfl).2, rfl⟩

/-- Take a 64-bit word. -/
def takeU64 (e : ε) : Reader ε UInt64 := do
  let b ← take e 8
  pure (ofBe b).toUInt64

theorem run_takeU64_eq_ok {s rest : Bytes} {x : UInt64} :
    (takeU64 e).run s = .ok (x, rest) ↔ s = u64Bytes x ++ rest := by
  simp only [takeU64, run_bind_eq_ok, run_take_eq_ok, run_pure_eq_ok]
  constructor
  · rintro ⟨b, s', ⟨hlen, rfl⟩, hx, rfl⟩
    rw [eq_u64Bytes_iff.mpr ⟨hlen, hx⟩]
  · rintro rfl
    exact ⟨u64Bytes x, rest, ⟨length_u64Bytes x, rfl⟩, (eq_u64Bytes_iff.mp rfl).2, rfl⟩

/-- Take a byte string after its length in four bytes. -/
def takeLp (e : ε) : Reader ε Bytes := do
  let count ← takeU32 e
  take e count.toNat

theorem run_takeLp_eq_ok {s rest : Bytes} :
    (takeLp e).run s = .ok (b, rest) ↔ b.length < 2 ^ 32 ∧ s = lpBytes b ++ rest := by
  simp only [takeLp, run_bind_eq_ok, run_takeU32_eq_ok, run_take_eq_ok]
  constructor
  · rintro ⟨count, s', rfl, hlen, rfl⟩
    refine ⟨hlen ▸ count.toNat_lt, ?_⟩
    rw [lpBytes, hlen, Nat.toUInt32, UInt32.ofNat_toNat, List.append_assoc]
  · rintro ⟨hlen, rfl⟩
    refine ⟨b.length.toUInt32, b ++ rest, by rw [lpBytes, List.append_assoc], ?_, rfl⟩
    rw [toNat_toUInt32_of_lt hlen]

/-- Read a byte string and keep it if it has length `n`. -/
def exactly (e : ε) (n : Nat) (b : Bytes) : Except ε (FixedBytes n) :=
  match FixedBytes.ofBytes? n b with
  | some x => .ok x
  | none => .error e

theorem exactly_eq_ok {x : FixedBytes n} :
    exactly e n b = .ok x ↔ b = x.val := by
  rw [← FixedBytes.ofBytes?_eq_some, exactly]
  split
  · next h => rw [h, Except.ok.injEq, Option.some_inj]
  · next h => simp only [h, reduceCtorEq]

/-- Take a byte string of a fixed length. -/
def takeArray (e : ε) (n : Nat) : Reader ε (FixedBytes n) := do
  let b ← take e n
  exactly e n b

theorem run_takeArray_eq_ok {s rest : Bytes} {x : FixedBytes n} :
    (takeArray e n).run s = .ok (x, rest) ↔ s = x.val ++ rest := by
  simp only [takeArray, run_bind_eq_ok, run_take_eq_ok, run_lift_eq_ok, exactly_eq_ok]
  constructor
  · rintro ⟨b, s', ⟨-, rfl⟩, rfl, rfl⟩
    rfl
  · rintro rfl
    exact ⟨x.val, rest, ⟨x.length_val, rfl⟩, rfl, rfl⟩

/-- Succeed at the end of the input only. -/
def finish (e : ε) : Reader ε Unit := do
  Result.refuseIf (!(← get).isEmpty) e

theorem run_finish_eq_ok {s rest : Bytes} :
    (finish e).run s = .ok (u, rest) ↔ s = [] ∧ rest = [] := by
  have hget : (finish e).run s
      = (liftM (Result.refuseIf (!s.isEmpty) e) : Reader ε Unit).run s := rfl
  rw [hget, run_refuseIf_eq_ok]
  constructor
  · rintro ⟨h, rfl⟩
    exact ⟨by simpa using h, by simpa using h⟩
  · rintro ⟨rfl, rfl⟩
    exact ⟨by simp, rfl⟩

/-- Take everything that is left. -/
def takeRest : Reader ε Bytes := fun s => .ok (s, [])

theorem run_takeRest_eq_ok {s rest : Bytes} :
    (takeRest : Reader ε Bytes).run s = .ok (b, rest) ↔ s = b ∧ rest = [] := by
  change Except.ok (s, []) = Except.ok (b, rest) ↔ _
  rw [Except.ok.injEq, Prod.mk.injEq, eq_comm (a := rest)]

/-! ### Counted loops -/

/-- Run a step `n` times over an accumulator. -/
def loop (step : σ → Reader ε σ) : Nat → σ → Reader ε σ
  | 0, acc => pure acc
  | n + 1, acc => do
    let acc ← step acc
    loop step n acc

/-- Read `n` values one after the other. -/
def many (p : Reader ε α) (n : Nat) : Reader ε (List α) :=
  loop (fun acc => do
    let x ← p
    pure (acc ++ [x])) n []

theorem run_loop_preserves {step : σ → Reader ε σ} {P : σ → Prop}
    (hstep : ∀ acc s acc' rest, P acc → (step acc).run s = .ok (acc', rest) → P acc')
    {acc acc' : σ} {s rest : Bytes} (hacc : P acc)
    (h : (loop step n acc).run s = .ok (acc', rest)) : P acc' := by
  induction n generalizing acc s with
  | zero =>
    obtain ⟨rfl, -⟩ := run_pure_eq_ok.mp h
    exact hacc
  | succ n ih =>
    obtain ⟨next, s', hfirst, hrest⟩ := run_bind_eq_ok.mp h
    exact ih (hstep _ _ _ _ hacc hfirst) hrest

/-- A loop over the encodings of a list folds the values of the list. -/
theorem run_loop_foldl {step : σ → Reader ε σ} {f : σ → α → σ}
    (h : ∀ x ∈ xs, ∀ acc rest, (step acc).run (encode x ++ rest) = .ok (f acc x, rest)) (acc : σ)
    (rest : Bytes) :
    (loop step xs.length acc).run (xs.flatMap encode ++ rest) = .ok (xs.foldl f acc, rest) := by
  induction xs generalizing acc with
  | nil => exact run_pure_eq_ok.mpr ⟨rfl, rfl⟩
  | cons x xs ih =>
    rw [List.length_cons, loop, run_bind_eq_ok, List.flatMap_cons, List.append_assoc]
    exact ⟨f acc x, _, h x List.mem_cons_self _ _,
      ih (fun y hy => h y (List.mem_cons_of_mem _ hy)) _⟩

/-- Reading values that are checked one by one is checking them in order. -/
theorem run_many_of_checked {check : α → Except ε Unit}
    (h : ∀ x ∈ xs, ∀ rest, p.run (encode x ++ rest) = check x >>= fun _ =>
      .ok (x, rest)) (rest : Bytes) :
    (many p xs.length).run (xs.flatMap encode ++ rest) = xs.forM check >>= fun _ =>
      .ok (xs, rest) := by
  have hloop : ∀ acc, (loop (fun acc => do
      let x ← p
      pure (acc ++ [x])) xs.length acc).run (xs.flatMap encode ++ rest) =
        xs.forM check >>= fun _ => .ok (acc ++ xs, rest) := by
    induction xs with
    | nil =>
      intro acc
      rw [List.append_nil]
      rfl
    | cons x xs ih =>
      intro acc
      obtain ⟨hx, hxs⟩ := List.forall_mem_cons.mp h
      have hforM : (x :: xs).forM check = check x >>= fun _ => xs.forM check := rfl
      rw [List.length_cons, loop, List.flatMap_cons, List.append_assoc, StateT.run_bind,
        StateT.run_bind, hx, hforM]
      cases check x with
      | error e => rfl
      | ok u =>
        refine (ih hxs (acc ++ [x])).trans ?_
        rw [List.append_assoc]
        rfl
  exact hloop []

section Loop

variable {step : List α → Reader ε (List α)} {acc acc' : List α} {s rest : Bytes}

/-- A loop whose step appends one value, read from its encoding and admitted after the values before
it, accepts exactly the encodings of the lists whose values are admitted one after the other. -/
theorem run_loop_iff {admits : List α → α → Prop} (accepts : List α → List α → Prop)
    (hstep : ∀ acc s acc' rest, (step acc).run s = .ok (acc', rest) ↔
      ∃ x, admits acc x ∧ acc' = acc ++ [x] ∧ s = encode x ++ rest)
    (hnil : ∀ acc, accepts acc [])
    (hcons : ∀ acc x xs, accepts acc (x :: xs) ↔ admits acc x ∧ accepts (acc ++ [x]) xs) :
    (loop step n acc).run s = .ok (acc', rest) ↔
      ∃ xs, xs.length = n ∧ acc' = acc ++ xs ∧ s = xs.flatMap encode ++ rest ∧ accepts acc xs := by
  induction n generalizing acc s with
  | zero =>
    rw [loop, run_pure_eq_ok]
    constructor
    · rintro ⟨rfl, rfl⟩
      exact ⟨[], rfl, (List.append_nil acc).symm, rfl, hnil acc⟩
    · rintro ⟨xs, hlen, rfl, rfl, -⟩
      obtain rfl := List.length_eq_zero_iff.mp hlen
      exact ⟨(List.append_nil acc).symm, rfl⟩
  | succ n ih =>
    rw [loop, run_bind_eq_ok]
    simp only [hstep, ih]
    constructor
    · rintro ⟨_, s', ⟨x, hx, rfl, rfl⟩, xs, rfl, rfl, rfl, hxs⟩
      exact ⟨x :: xs, rfl, List.append_assoc _ _ _, by simp, (hcons acc x xs).mpr ⟨hx, hxs⟩⟩
    · rintro ⟨xs, hlen, rfl, rfl, hxs⟩
      obtain ⟨x, xs, rfl⟩ := List.exists_cons_of_length_eq_add_one hlen
      obtain ⟨hx, hxs⟩ := (hcons acc x xs).mp hxs
      exact ⟨acc ++ [x], xs.flatMap encode ++ rest, ⟨x, hx, rfl, by simp⟩, xs,
        by simpa using hlen, by simp, rfl, hxs⟩

variable {after : α → α → Prop}

/-- The values are checked by themselves and against all values before them. -/
theorem run_loop_eq_ok
    (hstep : ∀ acc s acc' rest, (step acc).run s = .ok (acc', rest) ↔
      ∃ x, (valid x ∧ ∀ y ∈ acc, after y x) ∧ acc' = acc ++ [x] ∧ s = encode x ++ rest) :
    (loop step n acc).run s = .ok (acc', rest) ↔
      ∃ xs, xs.length = n ∧ acc' = acc ++ xs ∧ s = xs.flatMap encode ++ rest ∧
        (∀ x ∈ xs, valid x) ∧ xs.Pairwise after ∧ ∀ y ∈ acc, ∀ x ∈ xs, after y x := by
  refine run_loop_iff (fun acc xs => (∀ x ∈ xs, valid x) ∧ xs.Pairwise after ∧
    ∀ y ∈ acc, ∀ x ∈ xs, after y x) hstep (fun acc => ⟨nofun, .nil, nofun⟩) fun acc x xs => ?_
  simp only [List.forall_mem_cons, List.pairwise_cons, List.forall_mem_append, List.not_mem_nil,
    false_imp_iff, implies_true, and_true, forall_and]
  tauto

/-- The values are checked by themselves and against the value before them. -/
theorem run_loop_chain_eq_ok
    (hstep : ∀ acc s acc' rest, (step acc).run s = .ok (acc', rest) ↔
      ∃ x, (valid x ∧ ∀ y ∈ acc.getLast?, after y x) ∧ acc' = acc ++ [x] ∧ s = encode x ++ rest) :
    (loop step n acc).run s = .ok (acc', rest) ↔
      ∃ xs, xs.length = n ∧ acc' = acc ++ xs ∧ s = xs.flatMap encode ++ rest ∧
        (∀ x ∈ xs, valid x) ∧ (acc.getLast?.toList ++ xs).IsChain after := by
  refine run_loop_iff
    (fun acc xs => (∀ x ∈ xs, valid x) ∧ (acc.getLast?.toList ++ xs).IsChain after)
    hstep (fun acc => ⟨nofun, ?_⟩) fun acc x xs => ?_
  · cases acc.getLast? <;> simp
  · have hchain : (acc.getLast?.toList ++ x :: xs).IsChain after ↔
        (∀ y ∈ acc.getLast?, after y x) ∧ (x :: xs).IsChain after := by
      cases acc.getLast? <;> simp [List.isChain_cons_cons]
    rw [List.forall_mem_cons, hchain, List.getLast?_append_cons, List.getLast?_singleton]
    simp only [Option.toList_some, List.singleton_append]
    tauto

end Loop

theorem run_many_eq_ok
    (hp : ∀ s x rest, p.run s = .ok (x, rest) ↔ valid x ∧ s = encode x ++ rest) {s rest : Bytes} :
    (many p n).run s = .ok (xs, rest) ↔
      xs.length = n ∧ (∀ x ∈ xs, valid x) ∧ s = xs.flatMap encode ++ rest := by
  have hstep (acc : List α) (s : Bytes) (acc' : List α) (rest : Bytes) :
      (p >>= fun x => pure (acc ++ [x]) : Reader ε (List α)).run s = .ok (acc', rest) ↔
        ∃ x, (valid x ∧ ∀ y ∈ acc, True) ∧ acc' = acc ++ [x] ∧ s = encode x ++ rest := by
    simp only [run_bind_eq_ok, run_pure_eq_ok, hp]
    constructor
    · rintro ⟨x, s', ⟨hx, rfl⟩, rfl, rfl⟩
      exact ⟨x, ⟨hx, fun _ _ => trivial⟩, rfl, rfl⟩
    · rintro ⟨x, ⟨hx, -⟩, rfl, rfl⟩
      exact ⟨x, rest, ⟨hx, rfl⟩, rfl, rfl⟩
  rw [many, run_loop_eq_ok hstep]
  constructor
  · rintro ⟨xs, hlen, rfl, rfl, hxs, -⟩
    exact ⟨hlen, hxs, rfl⟩
  · rintro ⟨hlen, hxs, rfl⟩
    exact ⟨xs, hlen, rfl, rfl, hxs, List.pairwise_of_forall fun _ _ => trivial, nofun⟩

end Reader
