import Mathlib.Logic.Function.Basic
import Tacenta.Library.RecordReader

/-!
# Formats of sections

A file is a sequence of sections, and a section is a number of records after their count. Records
are read into a state one by one, and each of them is admitted or refused by the state so far. Input
that ends before a section that must follow is reported as truncated, with the section that it ends
after.

## Main definitions

* `SectionFormat`: how the records of each section are read, with `SectionFormat.readSections`.
* `SectionFormat.Codec`: the encodings that the readers invert, and what admitted records do.
* `EndsAfter`: a byte string ends right after a section.

## Main results

* `SectionFormat.Codec.run_readSections_eq_ok`: what is read, and into which state.
* `SectionFormat.Codec.rows_eq_of_bytes_eq`: the bytes determine the records.
* `SectionFormat.Codec.run_readSections_cut`: how each proper prefix is refused.
-/

open ByteString Reader Result

variable {τ ε σ : Type} {Record : τ → Type}

/-- How sections of records are read into a state. -/
structure SectionFormat (Record : τ → Type) (ε σ : Type) where
  take : (t : τ) → Reader ε (Record t)
  restore : (t : τ) → σ → Record t → Except ε σ
  malformed : ε
  truncated : τ → ε

/-- The bytes of sections up to the end of one of them. -/
inductive EndsAfter (chunk : τ → Bytes) : List τ → τ → Bytes → Prop where
  | here (t : τ) (ts : List τ) : EndsAfter chunk (t :: ts) t (chunk t)
  | later (t : τ) {ts : List τ} {last : τ} {q : Bytes} (h : EndsAfter chunk ts last q) :
    EndsAfter chunk (t :: ts) last (chunk t ++ q)

theorem endsAfter_cons_iff {chunk : τ → Bytes} {t last : τ} {ts : List τ} {q : Bytes} :
    EndsAfter chunk (t :: ts) last q ↔
      (last = t ∧ q = chunk t) ∨ ∃ q', q = chunk t ++ q' ∧ EndsAfter chunk ts last q' := by
  constructor
  · intro h
    cases h with
    | here => exact .inl ⟨rfl, rfl⟩
    | later _ h => exact .inr ⟨_, rfl, h⟩
  · rintro (⟨rfl, rfl⟩ | ⟨q', rfl, h⟩)
    · exact .here _ _
    · exact .later _ h

theorem EndsAfter.starts {chunk : τ → Bytes} {t last : τ} {ts : List τ} {q : Bytes}
    (h : EndsAfter chunk (t :: ts) last q) : chunk t <+: q := by
  cases h with
  | here => exact List.prefix_rfl
  | later => exact List.prefix_append _ _

namespace SectionFormat

variable (F : SectionFormat Record ε σ)

/-! ### Reading -/

/-- A section must follow the section `t`. -/
def present (t : τ) : Reader ε Unit := fun s =>
  if s.isEmpty then .error (F.truncated t) else .ok ((), s)

/-- Read the records of a section into the state. -/
def readSection (t : τ) (a : σ) : Reader ε σ := do
  let count ← Reader.takeU32 F.malformed
  Reader.loop (fun a => do
    let record ← F.take t
    F.restore t a record) count.toNat a

/-- Read the sections that follow the section `t`, to the end of the input. -/
def readSections : τ → List τ → σ → Reader ε σ
  | _, [], a => do
    Reader.finish F.malformed
    pure a
  | t, next :: ts, a => do
    F.present t
    let a ← F.readSection next a
    readSections next ts a

/-- The encodings that the readers invert, and what an admitted record does to the state. -/
structure Codec where
  encode : (t : τ) → Record t → Bytes
  Valid : (t : τ) → Record t → Prop
  Admits : (t : τ) → σ → Record t → Prop
  add : (t : τ) → σ → Record t → σ
  run_take_eq_ok : ∀ t s x rest,
    (F.take t).run s = .ok (x, rest) ↔ Valid t x ∧ s = encode t x ++ rest
  exact_take : ∀ t, (F.take t).Exact F.malformed
  restore_eq_ok : ∀ t a x a', F.restore t a x = .ok a' ↔ Admits t a x ∧ a' = add t a x
  truncated_injective : Function.Injective F.truncated
  truncated_ne_malformed : ∀ t, F.truncated t ≠ F.malformed

namespace Codec

variable {F} (K : F.Codec)

/-- The bytes of a section. -/
def layout (t : τ) (xs : List (Record t)) : Bytes :=
  u32Bytes xs.length.toUInt32 ++ xs.flatMap (K.encode t)

/-- The records of a section can be written. -/
structure Written (t : τ) (xs : List (Record t)) : Prop where
  length_lt : xs.length < 2 ^ 32
  valid : ∀ x ∈ xs, K.Valid t x

/-- The state with the records of a section. -/
def addAll (t : τ) (a : σ) (xs : List (Record t)) : σ := xs.foldl (K.add t) a

/-- The records of a section are admitted one after the other. -/
def Admitted (t : τ) (a : σ) (xs : List (Record t)) : Prop :=
  Machine.Along (Reader.adding (K.add t)) (K.Admits t) a xs

/-- The bytes of sections. -/
def bytes (rows : (t : τ) → List (Record t)) (ts : List τ) : Bytes :=
  ts.flatMap fun t => K.layout t (rows t)

/-- The state with the records of sections. -/
def addRows (rows : (t : τ) → List (Record t)) (ts : List τ) (a : σ) : σ :=
  ts.foldl (fun a t => K.addAll t a (rows t)) a

/-- The records of sections are admitted one after the other. -/
def RowsAdmitted (rows : (t : τ) → List (Record t)) : List τ → σ → Prop
  | [], _ => True
  | t :: ts, a => K.Admitted t a (rows t) ∧ RowsAdmitted rows ts (K.addAll t a (rows t))

variable {K}

theorem layout_ne_nil (t : τ) (xs : List (Record t)) : K.layout t xs ≠ [] := by
  intro h
  have hlength := congrArg List.length h
  rw [layout, List.length_append, length_u32Bytes, List.length_nil] at hlength
  omega

/-! ### One section -/

variable {s rest : Bytes}

theorem run_readSection_eq_ok {t : τ} {a a' : σ} :
    (F.readSection t a).run s = .ok (a', rest) ↔
      ∃ xs, K.Written t xs ∧ K.Admitted t a xs ∧ a' = K.addAll t a xs ∧
        s = K.layout t xs ++ rest := by
  have hstep (acc : σ) (s : Bytes) (acc' : σ) (rest : Bytes) :
      (F.take t >>= fun record => liftM (F.restore t acc record) : Reader ε σ).run s =
          .ok (acc', rest) ↔
        ∃ x, K.Valid t x ∧ K.Admits t acc x ∧ acc' = K.add t acc x ∧ s = K.encode t x ++ rest := by
    simp only [run_bind_eq_ok, K.run_take_eq_ok, run_lift_eq_ok, K.restore_eq_ok]
    constructor
    · rintro ⟨x, _, ⟨hx, rfl⟩, ⟨hadmits, rfl⟩, rfl⟩
      exact ⟨x, hx, hadmits, rfl, rfl⟩
    · rintro ⟨x, hx, hadmits, rfl, rfl⟩
      exact ⟨x, rest, ⟨hx, rfl⟩, ⟨hadmits, rfl⟩, rfl⟩
  simp only [readSection, run_bind_eq_ok, run_takeU32_eq_ok,
    run_loop_records_eq_ok hstep]
  constructor
  · rintro ⟨count, _, rfl, xs, hlength, hvalid, hadmitted, rfl, rfl⟩
    refine ⟨xs, ⟨hlength ▸ count.toNat_lt, hvalid⟩, hadmitted, rfl, ?_⟩
    rw [layout, hlength, Nat.toUInt32, UInt32.ofNat_toNat, List.append_assoc]
  · rintro ⟨xs, hwritten, hadmitted, rfl, rfl⟩
    refine ⟨_, _, List.append_assoc _ _ _, xs, ?_, hwritten.valid, hadmitted, rfl, rfl⟩
    rw [toNat_toUInt32_of_lt hwritten.length_lt]

theorem exact_readSection (K : F.Codec) (t : τ) (a : σ) : (F.readSection t a).Exact F.malformed :=
  Exact.takeU32.bind fun _ =>
    Exact.loop (fun _ => (K.exact_take t).bind fun _ => .lift _) _ a

theorem eq_of_layout_append_eq {t : τ} {xs ys : List (Record t)} (hxs : K.Written t xs)
    (hys : K.Written t ys) {rest' : Bytes} (h : K.layout t xs ++ rest = K.layout t ys ++ rest') :
    xs = ys ∧ rest = rest' := by
  have hread {zs : List (Record t)} (hzs : K.Written t zs) (rest : Bytes) :
      (do
        let count ← Reader.takeU32 F.malformed
        Reader.many (F.take t) count.toNat : Reader ε (List (Record t))).run
          (K.layout t zs ++ rest) = .ok (zs, rest) := by
    refine run_bind_eq_ok.mpr ⟨_, _, run_takeU32_eq_ok.mpr (List.append_assoc _ _ _),
      (run_many_eq_ok (K.run_take_eq_ok t)).mpr ⟨?_, hzs.valid, rfl⟩⟩
    rw [toNat_toUInt32_of_lt hzs.length_lt]
  have heq := (hread hxs rest).symm.trans (h ▸ hread hys rest')
  exact Prod.mk.inj (Except.ok.inj heq)

/-! ### Several sections -/

theorem run_present_eq_ok {t : τ} {u : Unit} :
    (F.present t).run s = .ok (u, rest) ↔ s ≠ [] ∧ s = rest := by
  change (if s.isEmpty then Except.error (F.truncated t) else .ok ((), s)) = _ ↔ _
  cases s with
  | nil => simp
  | cons byte s => simp

theorem run_readSections_cons {t next : τ} {ts : List τ} {a : σ} (h : s ≠ []) :
    (F.readSections t (next :: ts) a).run s =
      (F.readSection next a >>= F.readSections next ts).run s := by
  rw [readSections, StateT.run_bind, (run_present_eq_ok (u := ())).mpr ⟨h, rfl⟩]
  rfl

theorem run_readSections_nil (t next : τ) (ts : List τ) (a : σ) :
    (F.readSections t (next :: ts) a).run [] = .error (F.truncated t) := rfl

section Agree

variable {rows rows' : (t : τ) → List (Record t)} {ts : List τ}

theorem bytes_congr (h : ∀ t ∈ ts, rows t = rows' t) : K.bytes rows ts = K.bytes rows' ts := by
  induction ts with
  | nil => rfl
  | cons t ts ih =>
    rw [bytes, List.flatMap_cons, h t List.mem_cons_self]
    exact congrArg (K.layout t (rows' t) ++ ·) (ih fun t ht => h t (List.mem_cons_of_mem _ ht))

theorem addRows_congr (h : ∀ t ∈ ts, rows t = rows' t) (a : σ) :
    K.addRows rows ts a = K.addRows rows' ts a := by
  induction ts generalizing a with
  | nil => rfl
  | cons t ts ih =>
    rw [addRows, List.foldl_cons, h t List.mem_cons_self]
    exact ih (fun t ht => h t (List.mem_cons_of_mem _ ht)) _

theorem RowsAdmitted.congr {a : σ} (hadmitted : K.RowsAdmitted rows ts a)
    (h : ∀ t ∈ ts, rows t = rows' t) : K.RowsAdmitted rows' ts a := by
  induction ts generalizing a with
  | nil => trivial
  | cons t ts ih =>
    have ht := h t List.mem_cons_self
    rw [RowsAdmitted, ← ht]
    exact ⟨hadmitted.1, ih hadmitted.2 fun t ht => h t (List.mem_cons_of_mem _ ht)⟩

theorem RowsAdmitted.append_empty {a : σ} (hadmitted : K.RowsAdmitted rows ts a) {ts' : List τ}
    (h : ∀ t ∈ ts', rows t = []) : K.RowsAdmitted rows (ts ++ ts') a := by
  induction ts generalizing a with
  | nil =>
    induction ts' generalizing a with
    | nil => trivial
    | cons t ts' ih =>
      obtain ⟨ht, hts⟩ := List.forall_mem_cons.mp h
      rw [List.nil_append, RowsAdmitted, ht]
      exact ⟨trivial, ih hts trivial⟩
  | cons t ts ih => exact ⟨hadmitted.1, ih hadmitted.2⟩

end Agree

variable {a : σ} {ts : List τ}

/-- Sections are read into the state with their records, if these are admitted. -/
theorem run_readSections {rows : (t : τ) → List (Record t)}
    (hwritten : ∀ t ∈ ts, K.Written t (rows t)) (hadmitted : K.RowsAdmitted rows ts a) (t : τ) :
    (F.readSections t ts a).run (K.bytes rows ts) = .ok (K.addRows rows ts a, []) := by
  induction ts generalizing a t with
  | nil =>
    exact run_bind_eq_ok.mpr
      ⟨(), [], run_finish_eq_ok.mpr ⟨rfl, rfl⟩, run_pure_eq_ok.mpr ⟨rfl, rfl⟩⟩
  | cons next ts ih =>
    obtain ⟨hnext, hts⟩ := List.forall_mem_cons.mp hwritten
    have hne : K.bytes rows (next :: ts) ≠ [] := fun h =>
      layout_ne_nil next (rows next) (List.append_eq_nil_iff.mp h).1
    refine run_bind_eq_ok.mpr ⟨(), _, run_present_eq_ok.mpr ⟨hne, rfl⟩, ?_⟩
    exact run_bind_eq_ok.mpr ⟨_, _, run_readSection_eq_ok.mpr
      ⟨rows next, hnext, hadmitted.1, rfl, rfl⟩, ih hts hadmitted.2 next⟩

/-- What is read, and into which state. -/
theorem run_readSections_eq_ok [DecidableEq τ] {t : τ} (hnodup : ts.Nodup) {a' : σ}
    {s rest : Bytes} :
    (F.readSections t ts a).run s = .ok (a', rest) ↔
      ∃ rows, (∀ t ∈ ts, K.Written t (rows t)) ∧ K.RowsAdmitted rows ts a ∧
        a' = K.addRows rows ts a ∧ s = K.bytes rows ts ∧ rest = [] := by
  constructor
  · intro h
    induction ts generalizing t a s with
    | nil =>
      obtain ⟨_, _, hfinish, hpure⟩ := run_bind_eq_ok.mp h
      obtain ⟨rfl, rfl⟩ := run_finish_eq_ok.mp hfinish
      obtain ⟨rfl, rfl⟩ := run_pure_eq_ok.mp hpure
      exact ⟨fun _ => [], fun _ h => absurd h List.not_mem_nil, trivial, rfl, rfl, rfl⟩
    | cons next ts ih =>
      obtain ⟨hnew, hnodup⟩ := List.nodup_cons.mp hnodup
      obtain ⟨_, _, hpresent, hread⟩ := run_bind_eq_ok.mp h
      obtain ⟨-, rfl⟩ := run_present_eq_ok.mp hpresent
      obtain ⟨_, _, hsection, hsections⟩ := run_bind_eq_ok.mp hread
      obtain ⟨xs, hxs, hadmitted, rfl, rfl⟩ := (run_readSection_eq_ok (K := K)).mp hsection
      obtain ⟨rows, hwritten, hrows, rfl, rfl, rfl⟩ := ih hnodup hsections
      -- the section that was read is none of those that follow it
      have hsame : ∀ t ∈ ts, rows t = Function.update rows next xs t := fun t ht => by
        have hne : t ≠ next := fun heq => hnew (heq ▸ ht)
        rw [Function.update_of_ne hne]
      have hself : Function.update rows next xs next = xs := Function.update_self next xs rows
      refine ⟨Function.update rows next xs, List.forall_mem_cons.mpr ⟨?_, fun t ht => ?_⟩, ⟨?_, ?_⟩,
        ?_, ?_, rfl⟩
      · rwa [hself]
      · rw [← hsame t ht]
        exact hwritten t ht
      · rwa [hself]
      · rw [hself]
        exact hrows.congr hsame
      · rw [addRows_congr hsame, addRows, addRows, List.foldl_cons, hself]
      · rw [bytes_congr hsame, bytes, bytes, List.flatMap_cons, hself]
  · rintro ⟨rows, hwritten, hadmitted, rfl, rfl, rfl⟩
    exact run_readSections hwritten hadmitted t

/-- The bytes determine the records. -/
theorem rows_eq_of_bytes_eq {rows rows' : (t : τ) → List (Record t)}
    (hrows : ∀ t ∈ ts, K.Written t (rows t)) (hrows' : ∀ t ∈ ts, K.Written t (rows' t))
    (h : K.bytes rows ts = K.bytes rows' ts) : ∀ t ∈ ts, rows t = rows' t := by
  induction ts with
  | nil => exact fun _ ht => absurd ht List.not_mem_nil
  | cons t ts ih =>
    rw [List.forall_mem_cons] at hrows hrows' ⊢
    obtain ⟨ht, hrest⟩ := eq_of_layout_append_eq hrows.1 hrows'.1 h
    exact ⟨ht, ih hrows.2 hrows'.2 hrest⟩

/-! ### Prefixes -/

/-- A proper prefix is malformed, unless it ends right after a section. -/
theorem run_readSections_cut {rows : (t : τ) → List (Record t)} {chunk : τ → Bytes}
    (hchunk : ∀ t ∈ ts, chunk t = K.layout t (rows t))
    (hwritten : ∀ t ∈ ts, K.Written t (rows t)) (hadmitted : K.RowsAdmitted rows ts a)
    {q : Bytes} (hq : q <+: K.bytes rows ts) (hne : q ≠ K.bytes rows ts) (t : τ) :
    ((F.readSections t ts a).run q = .error F.malformed ∨
        ∃ last, (F.readSections t ts a).run q = .error (F.truncated last)) ∧
      ∀ last, (F.readSections t ts a).run q = .error (F.truncated last) ↔
        EndsAfter chunk (t :: ts) last (chunk t ++ q) := by
  induction ts generalizing a q t with
  | nil => exact absurd (List.prefix_nil.mp hq) hne
  | cons next ts ih =>
    obtain ⟨hnextChunk, hchunk⟩ := List.forall_mem_cons.mp hchunk
    obtain ⟨hnext, hwritten⟩ := List.forall_mem_cons.mp hwritten
    have hread (rest : Bytes) : (F.readSection next a).run (K.layout next (rows next) ++ rest) =
        .ok (K.addAll next a (rows next), rest) :=
      run_readSection_eq_ok.mpr ⟨_, hnext, hadmitted.1, rfl, rfl⟩
    obtain ⟨-, hcut⟩ := (exact_readSection K next a).of_run (hread [])
    have hends (q : Bytes) (last : τ) : EndsAfter chunk (t :: next :: ts) last (chunk t ++ q) ↔
        (last = t ∧ q = []) ∨ EndsAfter chunk (next :: ts) last q := by
      rw [endsAfter_cons_iff, List.append_right_eq_self]
      simp only [List.append_cancel_left_eq, exists_eq_left']
    simp only [hends]
    obtain rfl | hpresent := eq_or_ne q []
    · refine ⟨.inr ⟨t, run_readSections_nil ..⟩, fun last => ?_⟩
      rw [run_readSections_nil, Except.error.injEq, K.truncated_injective.eq_iff, eq_comm]
      refine ⟨fun h => .inl ⟨h, rfl⟩, fun h => h.elim And.left fun h => ?_⟩
      have := List.prefix_nil.mp h.starts
      exact absurd (hnextChunk ▸ this) (layout_ne_nil _ _)
    simp only [run_readSections_cons hpresent, hpresent, and_false, false_or]
    obtain ⟨hq, hne⟩ | ⟨q', rfl, hq', hne'⟩ := Reader.prefix_append_cases hq hne
    · -- the prefix ends within the section
      rw [StateT.run_bind, hcut q hq hne]
      refine ⟨.inl rfl, fun last => iff_of_false (fun h => ?_) fun h => ?_⟩
      · exact K.truncated_ne_malformed last (Except.error.inj h).symm
      · have := hnextChunk ▸ h.starts
        exact hne (hq.eq_of_length (Nat.le_antisymm hq.length_le this.length_le))
    · rw [StateT.run_bind, hread q']
      simp only [← hnextChunk]
      exact ih hchunk hwritten hadmitted.2 hq' hne' next

end Codec

end SectionFormat
