import Tacenta.Library.Execution
import Tacenta.Library.Reader

/-!
# Readers of records

A counted loop that reads records into a state, where each record is admitted or refused by the
state so far, accepts exactly the encodings of lists of records that are admitted one after the
other.

A reader is exact if it reads the same whatever follows what it reads, and refuses every proper
prefix of it with one error. Readers made of exact readers are exact.

## Main definitions

* `Reader.Exact`: the reader refuses every proper prefix of what it reads.

## Main results

* `Reader.run_loop_records_eq_ok`: what a loop over records accepts.
* `Reader.Exact.bind`, `Reader.Exact.loop`: exact readers compose.
-/

open ByteString

namespace Reader

variable {ε α β σ : Type} {e : ε}

/-! ### Loops over records -/

/-- What each record does to the state, as a machine without answers. -/
def adding (f : σ → α → σ) : Machine σ α Unit := fun s x => (f s x, ())

variable {A : σ → α → Prop} {s rest : Bytes} {p : Reader ε α}

/-- Records that are admitted whatever was added before them. -/
theorem along_adding_of_const {f : σ → α → σ} (h : ∀ acc x y, A (f acc y) x ↔ A acc x) {acc : σ}
    {xs : List α} :
    Machine.Along (adding f) A acc xs ↔ ∀ x ∈ xs, A acc x := by
  induction xs generalizing acc with
  | nil => exact iff_of_true trivial fun _ h => absurd h List.not_mem_nil
  | cons x xs ih =>
    rw [List.forall_mem_cons]
    refine and_congr_right' (ih.trans ?_)
    exact forall₂_congr fun y _ => h acc y x

/-- Records that are admitted unless their key was added before. -/
theorem along_adding_of_keys {κ : Type} {f : σ → α → σ} {P : σ → α → Prop} (key : α → κ)
    (Held : σ → κ → Prop) (hA : ∀ acc x, A acc x ↔ P acc x ∧ ¬Held acc (key x))
    (hP : ∀ acc x y, P (f acc y) x ↔ P acc x)
    (hHeld : ∀ acc k y, Held (f acc y) k ↔ k = key y ∨ Held acc k) {acc : σ} {xs : List α} :
    Machine.Along (adding f) A acc xs ↔
      (∀ x ∈ xs, P acc x ∧ ¬Held acc (key x)) ∧ (xs.map key).Nodup := by
  induction xs generalizing acc with
  | nil => exact iff_of_true trivial ⟨fun _ h => absurd h List.not_mem_nil, List.nodup_nil⟩
  | cons x xs ih =>
    change A acc x ∧ Machine.Along (adding f) A (f acc x) xs ↔ _
    simp only [hA, ih, hP, hHeld, List.forall_mem_cons, List.map_cons, List.nodup_cons,
      List.mem_map, not_or, not_exists, not_and]
    constructor
    · rintro ⟨hx, hxs, hnodup⟩
      exact ⟨⟨hx, fun y hy => ⟨(hxs y hy).1, (hxs y hy).2.2⟩⟩, fun y hy => (hxs y hy).2.1, hnodup⟩
    · rintro ⟨⟨hx, hxs⟩, hnew, hnodup⟩
      exact ⟨hx, fun y hy => ⟨(hxs y hy).1, hnew y hy, (hxs y hy).2⟩, hnodup⟩

/-- A loop over records accepts the encodings of records that are admitted one after the other. -/
theorem run_loop_records_eq_ok {step : σ → Reader ε σ} {encode : α → Bytes} {valid : α → Prop}
    {f : σ → α → σ} (hstep : ∀ acc s acc' rest, (step acc).run s = .ok (acc', rest) ↔
      ∃ x, valid x ∧ A acc x ∧ acc' = f acc x ∧ s = encode x ++ rest) {n : Nat} {acc acc' : σ} :
    (loop step n acc).run s = .ok (acc', rest) ↔
      ∃ xs, xs.length = n ∧ (∀ x ∈ xs, valid x) ∧ Machine.Along (adding f) A acc xs ∧
        acc' = xs.foldl f acc ∧ s = xs.flatMap encode ++ rest := by
  induction n generalizing acc s with
  | zero =>
    rw [loop, run_pure_eq_ok]
    constructor
    · rintro ⟨rfl, rfl⟩
      exact ⟨[], rfl, fun _ h => absurd h List.not_mem_nil, trivial, rfl, rfl⟩
    · rintro ⟨xs, hlength, -, -, rfl, rfl⟩
      obtain rfl := List.length_eq_zero_iff.mp hlength
      exact ⟨rfl, rfl⟩
  | succ n ih =>
    simp only [loop, run_bind_eq_ok, hstep, ih]
    constructor
    · rintro ⟨_, _, ⟨x, hx, hA, rfl, rfl⟩, xs, rfl, hxs, hAs, rfl, rfl⟩
      exact ⟨x :: xs, rfl, List.forall_mem_cons.mpr ⟨hx, hxs⟩, ⟨hA, hAs⟩, rfl,
        by rw [List.flatMap_cons, List.append_assoc]⟩
    · rintro ⟨xs, hlength, hvalid, hAs, rfl, rfl⟩
      cases xs with
      | nil => cases hlength
      | cons x xs =>
        obtain ⟨hx, hxs⟩ := List.forall_mem_cons.mp hvalid
        exact ⟨_, _, ⟨x, hx, hAs.1, rfl, by rw [List.flatMap_cons, List.append_assoc]⟩, xs,
          Nat.succ_inj.mp hlength, hxs, hAs.2, rfl, rfl⟩

/-! ### Other errors -/

/-- Report the errors of a reader as other ones. -/
def mapError {ε' : Type} (f : ε → ε') (p : Reader ε α) : Reader ε' α :=
  fun s => (p.run s).mapError f

theorem run_mapError_eq_ok {ε' : Type} {f : ε → ε'} {x : α} :
    (p.mapError f).run s = .ok (x, rest) ↔ p.run s = .ok (x, rest) := Result.mapError_eq_ok

theorem run'_eq_error :
    StateT.run' p s = .error e ↔ p.run s = .error e := by
  rw [StateT.run'_eq]
  cases p.run s with
  | error e' =>
    change Except.error e' = Except.error e ↔ _
    rw [Except.error.injEq, Except.error.injEq]
  | ok x => exact iff_of_false (fun h => by cases h) fun h => by cases h

/-! ### Prefixes -/

/-- The reader reads the same whatever follows what it reads, and refuses every proper prefix of
it. -/
def Exact (e : ε) (p : Reader ε α) : Prop :=
  ∀ s x rest, p.run s = .ok (x, rest) → ∃ c, s = c ++ rest ∧
    (∀ rest', p.run (c ++ rest') = .ok (x, rest')) ∧ ∀ q, q <+: c → q ≠ c → p.run q = .error e

theorem Exact.of_run (h : p.Exact e) {c : Bytes} {x : α}
    (hrun : p.run (c ++ rest) = .ok (x, rest)) :
    (∀ rest', p.run (c ++ rest') = .ok (x, rest')) ∧
      ∀ q, q <+: c → q ≠ c → p.run q = .error e := by
  obtain ⟨c', hc, hread⟩ := h _ _ _ hrun
  rwa [List.append_cancel_right hc]

/-- A proper prefix ends in the first part or in the second. -/
theorem prefix_append_cases {q b c : Bytes} (h : q <+: b ++ c) (hne : q ≠ b ++ c) :
    (q <+: b ∧ q ≠ b) ∨ ∃ q', q = b ++ q' ∧ q' <+: c ∧ q' ≠ c := by
  rcases List.prefix_or_prefix_of_prefix h (List.prefix_append b c) with hq | ⟨q', rfl⟩
  · by_cases heq : q = b
    · refine .inr ⟨[], by rw [heq, List.append_nil], List.nil_prefix, fun hc => hne ?_⟩
      rw [heq, ← hc, List.append_nil]
    · exact .inl ⟨hq, heq⟩
  · refine .inr ⟨q', rfl, (List.prefix_append_right_inj b).mp h, fun hc => hne ?_⟩
    rw [hc]

theorem Exact.bind {f : α → Reader ε β} (hp : p.Exact e) (hf : ∀ x, (f x).Exact e) :
    (p >>= f).Exact e := by
  intro s y rest h
  obtain ⟨x, s', hx, hy⟩ := run_bind_eq_ok.mp h
  obtain ⟨b, rfl, hb, hbprefix⟩ := hp _ _ _ hx
  obtain ⟨c, rfl, hc, hcprefix⟩ := hf x _ _ _ hy
  refine ⟨b ++ c, (List.append_assoc _ _ _).symm, fun rest' => ?_, fun q hq hne => ?_⟩
  · rw [List.append_assoc]
    exact run_bind_eq_ok.mpr ⟨x, _, hb _, hc _⟩
  · obtain ⟨hq, hne⟩ | ⟨q', rfl, hq', hne'⟩ := prefix_append_cases hq hne
    · rw [StateT.run_bind, hbprefix q hq hne]
      rfl
    · rw [StateT.run_bind, hb]
      exact hcprefix q' hq' hne'

theorem Exact.pure (x : α) : (Pure.pure x : Reader ε α).Exact e := by
  intro s y rest h
  obtain ⟨rfl, rfl⟩ := run_pure_eq_ok.mp h
  exact ⟨[], rfl, fun _ => rfl, fun q hq hne => absurd (List.prefix_nil.mp hq) hne⟩

theorem Exact.lift (x : Except ε α) : (liftM x : Reader ε α).Exact e := by
  intro s y rest h
  obtain ⟨rfl, rfl⟩ := run_lift_eq_ok.mp h
  exact ⟨[], rfl, fun _ => rfl, fun q hq hne => absurd (List.prefix_nil.mp hq) hne⟩

theorem Exact.throw (e' : ε) : (MonadExcept.throw e' : Reader ε α).Exact e := by
  intro s y rest h
  cases h

theorem Exact.take (n : Nat) : (Reader.take e n).Exact e := by
  intro s b rest h
  obtain ⟨rfl, rfl⟩ := run_take_eq_ok.mp h
  refine ⟨b, rfl, fun rest' => run_take_eq_ok.mpr ⟨rfl, rfl⟩, fun q hq hne => if_neg ?_⟩
  intro hle
  exact hne (hq.eq_of_length_le hle)

theorem Exact.takeU32 : (Reader.takeU32 e).Exact e := (Exact.take 4).bind fun _ => .pure _

theorem Exact.takeU64 : (Reader.takeU64 e).Exact e := (Exact.take 8).bind fun _ => .pure _

theorem Exact.takeLp : (Reader.takeLp e).Exact e := Exact.takeU32.bind fun _ => .take _

theorem Exact.takeArray (n : Nat) : (Reader.takeArray e n).Exact e :=
  (Exact.take n).bind fun _ => .lift _

theorem Exact.takeByte : (Reader.takeByte e).Exact e := by
  refine (Exact.take 1).bind fun b => ?_
  cases b.head? with
  | none => exact .throw e
  | some byte => exact .pure byte

theorem Exact.mapError {ε' : Type} {f : ε → ε'} (hp : p.Exact e) :
    (p.mapError f).Exact (f e) := by
  intro s x rest h
  obtain ⟨c, rfl, hread, hcut⟩ := hp s x rest (run_mapError_eq_ok.mp h)
  refine ⟨c, rfl, fun rest' => run_mapError_eq_ok.mpr (hread rest'), fun q hq hne => ?_⟩
  exact congrArg (Except.mapError f) (hcut q hq hne)

theorem Exact.loop {step : σ → Reader ε σ} (h : ∀ acc, (step acc).Exact e) (n : Nat) (acc : σ) :
    (Reader.loop step n acc).Exact e := by
  induction n generalizing acc with
  | zero => exact .pure acc
  | succ n ih => exact (h acc).bind ih

theorem Exact.many (h : p.Exact e) (n : Nat) : (Reader.many p n).Exact e :=
  Exact.loop (fun _ => h.bind fun _ => .pure _) n []

end Reader
