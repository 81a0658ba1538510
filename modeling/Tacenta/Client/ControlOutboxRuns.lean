import Tacenta.Client.ControlOutbox
import Tacenta.Library.Execution
import Tacenta.Library.Sorting

/-!
# Runs of the control outbox

The control outbox changes by four calls. Each moves handoffs along without touching what identifies
them, and then drops the oldest terminal handoffs beyond sixteen. A handoff that is finished while
sixteen younger ones are retained is itself the oldest: it is dropped in the same call.

## Main definitions

* `ControlCall`, `controlCalls`: the calls of a control outbox, as a machine.
* `ControlOutbox.Sound`: what holds of the outbox after every run.

## Main results

* `ControlOutbox.sound_run`: the invariant of every run.
* `ControlOutbox.reserved_reported_iff`: when a reserved handoff can be accepted and reported.
-/

open ByteString Records Result Tacenta.Group

namespace Tacenta.Client

/-! ### The canonical order -/

namespace Handoff

variable {commit : Bytes → Digest} {a b : Handoff}

instance : Std.TransCmp (canonicalOrder commit) :=
  inferInstanceAs (Std.TransCmp (compareLex (compareOn fun h : Handoff => (commit h.payload).val)
    (compareLex (compareOn fun h : Handoff => h.recipient.identity)
      (compareOn fun h : Handoff => h.recipient.device))))

theorem canonicalOrder_eq_iff : canonicalOrder commit a b = .eq ↔
    a.isFor commit b.recipient b.payload = true := by
  obtain ⟨⟨ai, ad⟩, _⟩ := a
  obtain ⟨⟨bi, bd⟩, _⟩ := b
  simp only [canonicalOrder, isFor, Ordering.then_eq_eq, Std.compare_eq_iff_eq, FixedBytes.val_inj,
    decide_eq_true_eq, Member.mk.injEq]
  tauto

/-- What a call never changes of a handoff. -/
def fixed (h : Handoff) : Member × Bytes × Bytes × UInt64 :=
  (h.recipient, h.payload, h.ciphertext, h.sequence)

/-- A change of a handoff by a call. -/
structure Moved (h h' : Handoff) : Prop where
  fixed_eq : h'.fixed = h.fixed
  fits : ControlOutbox.attemptsFit h.attemptsReserved h.disposition = true →
    ControlOutbox.attemptsFit h'.attemptsReserved h'.disposition = true
  terminal : h.disposition.isTerminal = true → h'.disposition.isTerminal = true

theorem Moved.refl (h : Handoff) : Moved h h := ⟨rfl, id, id⟩

end Handoff

namespace ControlOutbox

variable {commit : Bytes → Digest} {o o' : ControlOutbox} {l l' : List Handoff}

/-! ### Reclaiming -/

theorem terminal_append (l l' : List Handoff) : terminal (l ++ l') = terminal l + terminal l' :=
  List.countP_append

theorem terminal_cons (h : Handoff) (l : List Handoff) :
    terminal (h :: l) = terminal l + if h.disposition.isTerminal then 1 else 0 :=
  List.countP_cons

/-- A handoff with the allocation number is the first of the oldest terminal ones. -/
structure Oldest (pre : List Handoff) (sequence : UInt64) (post : List Handoff) : Prop where
  before : ∀ t ∈ pre, t.disposition.isTerminal = true → sequence < t.sequence
  after : ∀ t ∈ post, t.disposition.isTerminal = true → sequence ≤ t.sequence

/-- Of the terminal handoffs of a list, one is the first of the oldest, and it is dropped. -/
theorem dropOldestTerminal_cases (l : List Handoff) :
    (terminal l = 0 ∧ dropOldestTerminal l = l) ∨
      ∃ pre e post, l = pre ++ e :: post ∧ e.disposition.isTerminal = true ∧
        Oldest pre e.sequence post ∧ dropOldestTerminal l = pre ++ post := by
  rw [dropOldestTerminal]
  cases hmin : ((l.filter fun h => h.disposition.isTerminal).map Handoff.sequence).min? with
  | none =>
    left
    have hnil := List.map_eq_nil_iff.mp (List.min?_eq_none_iff.mp hmin)
    exact ⟨by rw [terminal, List.countP_eq_length_filter, hnil]; rfl, rfl⟩
  | some oldest =>
    right
    obtain ⟨hmem, hle⟩ := List.min?_eq_some_iff.mp hmin
    obtain ⟨h, hh, hseq⟩ := List.mem_map.mp hmem
    obtain ⟨hl, ht⟩ := List.mem_filter.mp hh
    obtain ⟨e, pre, post, hpre, he, hsplit, heq⟩ := List.exists_of_eraseP
      (p := fun h => h.disposition.isTerminal && decide (h.sequence = oldest)) hl
      (by simp [ht, hseq])
    simp only [Bool.and_eq_true, decide_eq_true_eq, not_and] at he hpre
    have hmin (t : Handoff) (htl : t ∈ l) (htt : t.disposition.isTerminal = true) :
        e.sequence ≤ t.sequence := by
      rw [he.2]
      exact hle _ (List.mem_map_of_mem (List.mem_filter.mpr ⟨htl, htt⟩))
    refine ⟨pre, e, post, hsplit, he.1, ⟨fun t htp htt => ?_, fun t htp htt => ?_⟩, heq⟩
    · refine UInt64.lt_of_le_of_ne (hmin t (hsplit ▸ List.mem_append_left _ htp) htt) ?_
      rw [he.2]
      exact fun h => hpre t htp htt h.symm
    · exact hmin t (hsplit ▸ List.mem_append_right _ (List.mem_cons_of_mem _ htp)) htt

theorem sublist_dropOldestTerminal (l : List Handoff) : (dropOldestTerminal l).Sublist l := by
  rcases dropOldestTerminal_cases l with ⟨-, h⟩ | ⟨pre, e, post, rfl, -, -, h⟩
  · rw [h]
  · rw [h]
    exact (List.Sublist.refl pre).append (List.sublist_cons_self e post)

theorem terminal_dropOldestTerminal (l : List Handoff) :
    terminal (dropOldestTerminal l) = terminal l - 1 := by
  rcases dropOldestTerminal_cases l with ⟨hzero, h⟩ | ⟨pre, e, post, rfl, he, -, h⟩
  · rw [h, hzero]
  · rw [h, terminal_append, terminal_append, terminal_cons, if_pos he]
    omega

/-- Dropping the oldest terminal handoff of a list, seen from one of them. -/
theorem dropOldestTerminal_of_mem (pre post : List Handoff) {e : Handoff}
    (he : e.disposition.isTerminal = true) :
    (Oldest pre e.sequence post ∧ dropOldestTerminal (pre ++ e :: post) = pre ++ post) ∨
      ¬Oldest pre e.sequence post ∧ ∃ pre' post', pre'.Sublist pre ∧ post'.Sublist post ∧
        dropOldestTerminal (pre ++ e :: post) = pre' ++ e :: post' := by
  rcases dropOldestTerminal_cases (pre ++ e :: post) with ⟨hzero, -⟩ |
    ⟨pre₂, x, post₂, hsplit, hx, hoff, heq⟩
  · rw [terminal_append, terminal_cons, if_pos he] at hzero
    omega
  rw [heq]
  rcases List.append_eq_append_iff.mp hsplit with ⟨between, rfl, hpost⟩ | ⟨between, rfl, hpost⟩
  all_goals rcases between with _ | ⟨y, between⟩
  · obtain ⟨rfl, rfl⟩ := List.cons_eq_cons.mp hpost
    rw [List.append_nil] at hoff ⊢
    exact .inl ⟨hoff, rfl⟩
  · -- a later handoff is older
    obtain ⟨rfl, rfl⟩ := List.cons_eq_cons.mp hpost
    refine .inr ⟨fun hold => ?_, pre, between ++ post₂, List.Sublist.refl pre,
      (List.Sublist.refl between).append (List.sublist_cons_self x post₂), by simp⟩
    have hlt := hoff.before e (by simp) he
    have hle := hold.after x (by simp) hx
    exact UInt64.lt_irrefl _ (UInt64.lt_of_lt_of_le hlt hle)
  · obtain ⟨rfl, rfl⟩ := List.cons_eq_cons.mp hpost
    rw [List.append_nil]
    exact .inl ⟨hoff, rfl⟩
  · -- an earlier handoff is as old
    obtain ⟨rfl, rfl⟩ := List.cons_eq_cons.mp hpost
    refine .inr ⟨fun hold => ?_, pre₂ ++ between, post,
      (List.Sublist.refl pre₂).append (List.sublist_cons_self x between), List.Sublist.refl post,
      by simp⟩
    have hlt := hold.before x (by simp) hx
    have hle := hoff.after e (by simp) he
    exact UInt64.lt_irrefl _ (UInt64.lt_of_lt_of_le hlt hle)

theorem sublist_reclaim (l : List Handoff) : (reclaim l).handoffs.Sublist l := by
  rw [reclaim]
  generalize terminal l - maxTerminalHandoffs = n
  induction n generalizing l with
  | zero => exact List.Sublist.refl l
  | succ n ih => exact (ih _).trans (sublist_dropOldestTerminal l)

theorem terminal_reclaim (l : List Handoff) : terminal (reclaim l).handoffs ≤ 16 := by
  have hiterate (n : Nat) : ∀ l, terminal (dropOldestTerminal^[n] l) = terminal l - n := by
    induction n with
    | zero => exact fun l => rfl
    | succ n ih =>
      intro l
      rw [Function.iterate_succ_apply, ih, terminal_dropOldestTerminal]
      omega
  rw [reclaim, hiterate, maxTerminalHandoffs]
  omega

/-- Nothing is dropped within the bound, one handoff beyond it by one. -/
theorem reclaim_of_le (h : terminal l ≤ 16) : reclaim l = ⟨l⟩ := by
  rw [reclaim, maxTerminalHandoffs, Nat.sub_eq_zero_of_le h]
  rfl

theorem reclaim_of_eq (h : terminal l = 17) : reclaim l = ⟨dropOldestTerminal l⟩ := by
  rw [reclaim, maxTerminalHandoffs, h]
  rfl

/-! ### The invariant -/

/-- The handoffs are in strict canonical order and within the bounds, their attempts fit where they
stand, and they carry controls. -/
structure Sound (commit : Bytes → Digest) (o : ControlOutbox) : Prop where
  sorted : o.handoffs.Pairwise fun a b => Handoff.canonicalOrder commit a b = .lt
  live_le : o.live ≤ 8
  terminal_le : terminal o.handoffs ≤ 16
  fits : ∀ h ∈ o.handoffs, attemptsFit h.attemptsReserved h.disposition = true
  control : ∀ h ∈ o.handoffs, Handoff.isControlPayload h.payload = true

theorem sound_empty : Sound commit empty :=
  ⟨.nil, Nat.zero_le _, Nat.zero_le _, fun _ h => absurd h List.not_mem_nil,
    fun _ h => absurd h List.not_mem_nil⟩

theorem sound_reclaim (hsorted : l.Pairwise fun a b => Handoff.canonicalOrder commit a b = .lt)
    (hlive : (⟨l⟩ : ControlOutbox).live ≤ 8)
    (hfits : ∀ h ∈ l, attemptsFit h.attemptsReserved h.disposition = true)
    (hcontrol : ∀ h ∈ l, Handoff.isControlPayload h.payload = true) : Sound commit (reclaim l) where
  sorted := hsorted.sublist (sublist_reclaim l)
  live_le := (sublist_reclaim l).countP_le.trans hlive
  terminal_le := terminal_reclaim l
  fits h hh := hfits h ((sublist_reclaim l).mem hh)
  control h hh := hcontrol h ((sublist_reclaim l).mem hh)

section Moved

variable (h : List.Forall₂ Handoff.Moved l l')

include h

theorem map_fixed_of_moved : l'.map Handoff.fixed = l.map Handoff.fixed := by
  induction h with
  | nil => rfl
  | cons hab _ ih => rw [List.map_cons, List.map_cons, hab.fixed_eq, ih]

theorem live_of_moved : (⟨l'⟩ : ControlOutbox).live ≤ (⟨l⟩ : ControlOutbox).live := by
  induction h with
  | nil => exact Nat.le_refl _
  | @cons a b _ _ hab _ ih =>
    simp only [live, List.countP_cons] at ih ⊢
    have hterminal := hab.terminal
    cases ha : a.disposition.isTerminal with
    | false => simp only [Bool.not_false, if_true]; split <;> omega
    | true =>
      rw [hterminal ha]
      exact Nat.add_le_add_right ih _

theorem exists_of_moved {b : Handoff} (hb : b ∈ l') : ∃ a ∈ l, Handoff.Moved a b := by
  induction h with
  | nil => cases hb
  | cons hab _ ih =>
    rcases List.mem_cons.mp hb with rfl | hb
    · exact ⟨_, List.mem_cons_self, hab⟩
    · obtain ⟨a, ha, hmoved⟩ := ih hb
      exact ⟨a, List.mem_cons_of_mem _ ha, hmoved⟩

end Moved

/-- The canonical order does not depend on what calls change. -/
theorem pairwise_of_map_fixed {R : Member × Bytes × Bytes × UInt64 →
    Member × Bytes × Bytes × UInt64 → Prop} (h : l'.map Handoff.fixed = l.map Handoff.fixed)
    (hl : l.Pairwise fun a b => R a.fixed b.fixed) : l'.Pairwise fun a b => R a.fixed b.fixed := by
  rw [← List.pairwise_map (R := R)] at hl ⊢
  rwa [h]

theorem Sound.moved (ho : Sound commit o) (h : List.Forall₂ Handoff.Moved o.handoffs l) :
    Sound commit (reclaim l) := by
  refine sound_reclaim ?_ ((live_of_moved h).trans ho.live_le) (fun b hb => ?_) fun b hb => ?_
  · exact pairwise_of_map_fixed (R := fun x y =>
      ((compare (commit x.2.1).val (commit y.2.1).val).then
        ((compare x.1.identity y.1.identity).then
        (compare x.1.device y.1.device))) = .lt) (map_fixed_of_moved h) ho.sorted
  · obtain ⟨a, ha, hmoved⟩ := exists_of_moved h hb
    exact hmoved.fits (ho.fits a ha)
  · obtain ⟨a, ha, hmoved⟩ := exists_of_moved h hb
    rw [(Prod.mk.inj (Prod.mk.inj hmoved.fixed_eq).2).1]
    exact ho.control a ha

end ControlOutbox

/-! ### Calls -/

/-- A call of the control outbox. -/
inductive ControlCall where
  | recordPrepared (recipient : Member) (payload ciphertext : Bytes)
  | reserve (recipient : Member) (payload : Bytes)
  | accept (recipient : Member) (payload : Bytes)
  | cancelNonRevocationForRecipient (recipient : Member)
  deriving DecidableEq

/-- The calls of the control outbox, each with the handoff that it answers with. A call that is
refused leaves the outbox. -/
def controlCalls (commit : Bytes → Digest) :
    Machine ControlOutbox ControlCall (Except Error (Option Handoff))
  | o, .recordPrepared recipient payload ciphertext =>
    match o.recordPrepared commit recipient payload ciphertext with
    | .ok o' => (o', .ok none)
    | .error e => (o, .error e)
  | o, .reserve recipient payload =>
    match o.reserve commit recipient payload with
    | .ok (o', h) => (o', .ok (some h))
    | .error e => (o, .error e)
  | o, .accept recipient payload =>
    match o.accept commit recipient payload with
    | .ok o' => (o', .ok none)
    | .error e => (o, .error e)
  | o, .cancelNonRevocationForRecipient recipient =>
    (o.cancelNonRevocationForRecipient recipient, .ok none)

namespace ControlOutbox

variable {commit : Bytes → Digest} {o o' : ControlOutbox} {l : List Handoff}

/-- What a call can do. -/
inductive Stepped (commit : Bytes → Digest) (o : ControlOutbox) : ControlCall → ControlOutbox → Prop
  | same (call : ControlCall) : Stepped commit o call o
  | moved (call : ControlCall) {l : List Handoff} (h : List.Forall₂ Handoff.Moved o.handoffs l) :
      Stepped commit o call (reclaim l)
  | recorded (recipient : Member) (payload ciphertext : Bytes)
      (hnew : ∀ h ∈ o.handoffs, h.isFor commit recipient payload = false) (hlive : o.live < 8)
      (hcontrol : Handoff.isControlPayload payload = true) :
      Stepped commit o (.recordPrepared recipient payload ciphertext) (reclaim (sort commit
        (o.handoffs ++ [⟨recipient, payload, ciphertext, 0, .prepared, o.nextSequence⟩])))

/-- What `reserve` does to a handoff. -/
def reserved (h : Handoff) : Handoff :=
  { h with
    attemptsReserved := h.attemptsReserved + 1
    disposition := if h.attemptsReserved + 1 = maxAttempts then .exhaustedUnknown else .handedOff }

private theorem eq_one_or_two {a : UInt8} (h : a ≠ 0 ∧ a < maxAttempts) : a = 1 ∨ a = 2 := by
  have hzero : a.toNat ≠ 0 := fun hzero => h.1 (UInt8.toNat_inj.mp hzero)
  have hlt : a.toNat < 3 := UInt8.lt_iff_toNat_lt.mp h.2
  simp only [← UInt8.toNat_inj]
  change a.toNat = 1 ∨ a.toNat = 2
  omega

theorem moved_reserved {h : Handoff} (hlive : h.disposition.isTerminal = false) :
    h.Moved (reserved h) := by
  refine ⟨rfl, fun hfits => ?_, fun hterminal => by rw [hlive] at hterminal; cases hterminal⟩
  have hcases : h.attemptsReserved = 0 ∨ h.attemptsReserved = 1 ∨ h.attemptsReserved = 2 := by
    cases hd : h.disposition <;> rw [hd] at hlive hfits <;> try cases hlive
    · exact .inl (of_decide_eq_true hfits)
    · exact .inr (eq_one_or_two (of_decide_eq_true hfits))
  rcases hcases with ha | ha | ha <;> simp only [reserved, ha] <;> decide

/-- What `accept` does to a handoff. -/
def accepted (h : Handoff) : Handoff := { h with disposition := .relayAccepted }

theorem moved_accepted {h : Handoff}
    (hd : h.disposition = .handedOff ∨ h.disposition = .exhaustedUnknown) :
    h.Moved (accepted h) := by
  refine ⟨rfl, fun hfits => ?_, fun _ => rfl⟩
  have hcases : h.attemptsReserved = 1 ∨ h.attemptsReserved = 2 ∨ h.attemptsReserved = 3 := by
    rcases hd with hd | hd <;> rw [hd] at hfits
    · rcases eq_one_or_two (of_decide_eq_true hfits) with ha | ha
      · exact .inl ha
      · exact .inr (.inl ha)
    · exact .inr (.inr (of_decide_eq_true hfits))
  rcases hcases with ha | ha | ha <;> simp only [accepted, ha] <;> decide

theorem moved_cancelFor (recipient : Member) (h : Handoff) : h.Moved (cancelFor recipient h) := by
  rw [cancelFor]
  split
  · exact .refl h
  split
  · exact .refl h
  · refine ⟨rfl, fun hfits => ?_, fun _ => ?_⟩
    · cases hd : h.disposition <;> rw [hd] at hfits <;> try exact hfits
      rcases eq_one_or_two (of_decide_eq_true hfits) with ha | ha <;> simp only [ha] <;> decide
    · cases hd : h.disposition <;> rfl

/-! ### What each call can do -/

variable {payload : Bytes} {pre post : List Handoff}

theorem recordPrepared_cases {recipient : Member} {ciphertext : Bytes}
    (h : o.recordPrepared commit recipient payload ciphertext = .ok o') :
    Stepped commit o (.recordPrepared recipient payload ciphertext) o' := by
  rw [recordPrepared] at h
  cases hfind : o.handoffs.find? (Handoff.isFor commit recipient payload) with
  | some existing =>
    rw [hfind] at h
    obtain ⟨-, h⟩ := refuseIf_bind_eq_ok.mp h
    rw [← pure_eq_ok.mp h]
    exact .same _
  | none =>
    rw [hfind] at h
    obtain ⟨hadmitted, h⟩ := refuseIf_bind_eq_ok.mp h
    rw [← pure_eq_ok.mp h]
    rw [not_or, Nat.not_le, Bool.not_eq_true, Bool.not_eq_false'] at hadmitted
    refine .recorded recipient payload ciphertext (fun x hx => ?_) hadmitted.1 hadmitted.2
    simpa using List.find?_eq_none.mp hfind x hx

/-- Reserving changes the first handoff of the recipient and payload, if it is live. -/
theorem reserve_eq_ok_iff {recipient : Member} {r : Handoff} :
    o.reserve commit recipient payload = .ok (o', r) ↔ ∃ pre h post,
      o.handoffs = pre ++ h :: post ∧ (∀ x ∈ pre, x.isFor commit recipient payload = false) ∧
      h.isFor commit recipient payload = true ∧ h.disposition.isTerminal = false ∧
      r = reserved h ∧ o' = reclaim (pre ++ r :: post) := by
  simp only [reserve, bind_eq_ok, Prod.exists, updateFirst_eq_ok_iff, refuseIf_eq_ok, pure_eq_ok,
    Prod.mk.injEq, Bool.not_eq_true, exists_const]
  constructor
  · rintro ⟨l, r', ⟨pre, h, post, y, hsplit, hpre, hfor, ⟨hlive, rfl, rfl⟩, rfl⟩, rfl, rfl⟩
    exact ⟨pre, h, post, hsplit, hpre, hfor, hlive, rfl, rfl⟩
  · rintro ⟨pre, h, post, hsplit, hpre, hfor, hlive, rfl, rfl⟩
    exact ⟨_, _, ⟨pre, h, post, _, hsplit, hpre, hfor, ⟨hlive, rfl, rfl⟩, rfl⟩, rfl, rfl⟩

/-- Accepting changes the first handoff of the recipient and payload, if it was handed off. -/
theorem accept_eq_ok_iff {recipient : Member} :
    o.accept commit recipient payload = .ok o' ↔ ∃ pre h post,
      o.handoffs = pre ++ h :: post ∧ (∀ x ∈ pre, x.isFor commit recipient payload = false) ∧
      h.isFor commit recipient payload = true ∧
      (h.disposition = .handedOff ∨ h.disposition = .exhaustedUnknown) ∧
      o' = reclaim (pre ++ accepted h :: post) := by
  simp only [accept, bind_eq_ok, Prod.exists, updateFirst_eq_ok_iff, refuseIf_eq_ok, pure_eq_ok,
    Prod.mk.injEq, exists_const]
  constructor
  · rintro ⟨l, ⟨pre, h, post, y, hsplit, hpre, hfor, ⟨hd, rfl, -⟩, rfl⟩, rfl⟩
    exact ⟨pre, h, post, hsplit, hpre, hfor, by tauto, rfl⟩
  · rintro ⟨pre, h, post, hsplit, hpre, hfor, hd, rfl⟩
    exact ⟨_, ⟨pre, h, post, _, hsplit, hpre, hfor, ⟨by tauto, rfl, trivial⟩, rfl⟩, rfl⟩

theorem handoff_eq_ok_iff {recipient : Member} {h : Handoff} :
    o.handoff commit recipient payload = .ok h ↔ ∃ pre post,
      o.handoffs = pre ++ h :: post ∧ (∀ x ∈ pre, x.isFor commit recipient payload = false) ∧
      h.isFor commit recipient payload = true := by
  rw [handoff]
  constructor
  · intro hok
    split at hok
    · next x hx =>
      obtain rfl := Except.ok.inj hok
      obtain ⟨hfor, pre, post, hsplit, hpre⟩ := List.find?_eq_some_iff_append.mp hx
      exact ⟨pre, post, hsplit, fun y hy => by simpa using hpre y hy, hfor⟩
    · cases hok
  · rintro ⟨pre, post, hsplit, hpre, hfor⟩
    rw [List.find?_eq_some_iff_append.mpr ⟨hfor, pre, post, hsplit, fun y hy => by
      simpa using hpre y hy⟩]

theorem forall₂_moved {h h' : Handoff} (hmoved : h.Moved h') :
    List.Forall₂ Handoff.Moved (pre ++ h :: post) (pre ++ h' :: post) :=
  List.rel_append (List.forall₂_same.mpr fun x _ => .refl x)
    (.cons hmoved (List.forall₂_same.mpr fun x _ => .refl x))

theorem stepped (commit : Bytes → Digest) (o : ControlOutbox) (call : ControlCall) :
    Stepped commit o call (controlCalls commit o call).1 := by
  cases call with
  | recordPrepared recipient payload ciphertext =>
    rw [controlCalls]
    split
    · next o' h => exact recordPrepared_cases h
    · exact .same _
  | reserve recipient payload =>
    rw [controlCalls]
    split
    · next o' r h =>
      obtain ⟨pre, h, post, hsplit, -, -, hlive, rfl, rfl⟩ := reserve_eq_ok_iff.mp h
      exact .moved _ (hsplit ▸ forall₂_moved (moved_reserved hlive))
    · exact .same _
  | accept recipient payload =>
    rw [controlCalls]
    split
    · next o' h =>
      obtain ⟨pre, h, post, hsplit, -, -, hd, rfl⟩ := accept_eq_ok_iff.mp h
      exact .moved _ (hsplit ▸ forall₂_moved (moved_accepted hd))
    · exact .same _
  | cancelNonRevocationForRecipient recipient =>
    refine .moved _ ?_
    rw [List.forall₂_map_right_iff]
    exact List.forall₂_same.mpr fun x _ => moved_cancelFor recipient x

theorem pairwise_ne_of_new (hsorted : o.handoffs.Pairwise fun a b =>
      Handoff.canonicalOrder commit a b = .lt) {h : Handoff}
    (hnew : ∀ x ∈ o.handoffs, x.isFor commit h.recipient h.payload = false) :
    (o.handoffs ++ [h]).Pairwise fun a b => Handoff.canonicalOrder commit a b ≠ .eq := by
  rw [List.pairwise_append]
  refine ⟨hsorted.imp fun hlt heq => ?_, List.pairwise_singleton _ _, fun a ha b hb heq => ?_⟩
  · rw [hlt] at heq
    cases heq
  · obtain rfl := List.mem_singleton.mp hb
    have hfor := Handoff.canonicalOrder_eq_iff.mp heq
    rw [hnew a ha] at hfor
    cases hfor

theorem perm_sort (l : List Handoff) : (sort commit l).Perm l := List.perm_insertionSort _ _

theorem Sound.step {call : ControlCall} (ho : Sound commit o) (h : Stepped commit o call o') :
    Sound commit o' := by
  cases h with
  | same => exact ho
  | moved _ hmoved => exact ho.moved hmoved
  | recorded recipient payload ciphertext hnew hlive hcontrol =>
    refine sound_reclaim (Sorting.pairwise_lt (pairwise_ne_of_new ho.sorted hnew)) ?_ ?_ ?_
    · have hperm : (sort commit (o.handoffs ++
          [⟨recipient, payload, ciphertext, 0, .prepared, o.nextSequence⟩])).Perm _ := perm_sort _
      have hcount := hperm.countP_eq fun h => !h.disposition.isTerminal
      rw [live, hcount, List.countP_append]
      change o.live + 1 ≤ 8
      omega
    all_goals
      intro x hx
      rcases List.mem_append.mp ((perm_sort _).mem_iff.mp hx) with hx | hx
    · exact ho.fits x hx
    · obtain rfl := List.mem_singleton.mp hx
      rfl
    · exact ho.control x hx
    · obtain rfl := List.mem_singleton.mp hx
      exact hcontrol

/-- The invariant holds after every run. -/
theorem sound_run (commit : Bytes → Digest) (calls : List ControlCall) :
    Sound commit ((controlCalls commit).run empty calls) :=
  Machine.run_preserves (Sound commit) (fun o call h => h.step (stepped commit o call)) sound_empty
    calls

/-! ### Reserve, accept, report -/

variable {recipient : Member} {payload : Bytes}

/-- The handoffs after the one of a recipient and payload are of other recipients or payloads. -/
theorem Sound.isFor_post (ho : Sound commit o) {h : Handoff}
    (hsplit : o.handoffs = pre ++ h :: post) (hfor : h.isFor commit recipient payload = true) :
    ∀ x ∈ post, x.isFor commit recipient payload = false := by
  intro x hx
  have hlt : Handoff.canonicalOrder commit h x = .lt := by
    have hsorted := ho.sorted
    rw [hsplit, List.pairwise_append, List.pairwise_cons] at hsorted
    exact hsorted.2.1.1 x hx
  by_contra hxfor
  rw [Bool.not_eq_false] at hxfor
  have heq : Handoff.canonicalOrder commit h x = .eq := by
    rw [Handoff.canonicalOrder_eq_iff]
    simp only [Handoff.isFor, decide_eq_true_eq] at hfor hxfor ⊢
    exact ⟨hfor.1.trans hxfor.1.symm, hfor.2.trans hxfor.2.symm⟩
  rw [hlt] at heq
  cases heq

/-- Accepting and reporting right after: the handoff is reported as accepted, with a ciphertext. -/
def Reports (commit : Bytes → Digest) (o : ControlOutbox) (recipient : Member) (payload : Bytes)
    (ciphertext : Bytes) : Prop :=
  ∃ o' h, o.accept commit recipient payload = .ok o' ∧
    o'.handoff commit recipient payload = .ok h ∧ h.disposition = .relayAccepted ∧
    h.ciphertext = ciphertext

/-- Not the oldest: one of the retained terminal handoffs was allocated before it. -/
theorem Sound.not_oldest_iff (ho : Sound commit o) {h : Handoff}
    (hsplit : o.handoffs = pre ++ h :: post) (hlive : h.disposition.isTerminal = false) :
    ¬Oldest pre h.sequence post ↔ ∃ t ∈ o.handoffs, t.disposition.isTerminal = true ∧
      (t.sequence < h.sequence ∨
        t.sequence = h.sequence ∧ Handoff.canonicalOrder commit t h = .lt) := by
  have hsorted := ho.sorted
  rw [hsplit, List.pairwise_append, List.pairwise_cons] at hsorted
  constructor
  · intro hold
    by_contra hnone
    refine hold ⟨fun t ht hterminal => ?_, fun t ht hterminal => ?_⟩
    · by_contra hlt
      have hmem : t ∈ o.handoffs := hsplit ▸ List.mem_append_left _ ht
      refine hnone ⟨t, hmem, hterminal, ?_⟩
      rcases UInt64.lt_or_eq_of_le (UInt64.not_lt.mp hlt) with hlt | heq
      · exact .inl hlt
      · exact .inr ⟨heq, hsorted.2.2 t ht h List.mem_cons_self⟩
    · by_contra hlt
      have hmem : t ∈ o.handoffs :=
        hsplit ▸ List.mem_append_right _ (List.mem_cons_of_mem _ ht)
      exact hnone ⟨t, hmem, hterminal, .inl (UInt64.not_le.mp hlt)⟩
  · rintro ⟨t, ht, hterminal, holder⟩ hold
    rw [hsplit] at ht
    rcases List.mem_append.mp ht with ht | ht
    · have hlt := hold.before t ht hterminal
      rcases holder with hlt' | ⟨heq, -⟩
      · exact UInt64.lt_irrefl _ (UInt64.lt_trans hlt hlt')
      · exact UInt64.lt_irrefl _ (heq ▸ hlt)
    · rcases List.mem_cons.mp ht with rfl | ht
      · rw [hlive] at hterminal
        cases hterminal
      · have hle := hold.after t ht hterminal
        rcases holder with hlt | ⟨-, hlt⟩
        · exact UInt64.lt_irrefl _ (UInt64.lt_of_le_of_lt hle hlt)
        · have hgt := Std.OrientedCmp.gt_of_lt (hsorted.2.1.1 t ht)
          rw [hlt] at hgt
          cases hgt

/-- A handoff that becomes terminal is kept: there is room, or another one is older. -/
def Kept (pre : List Handoff) (sequence : UInt64) (post : List Handoff) : Prop :=
  terminal pre + terminal post < 16 ∨ ¬Oldest pre sequence post

section Finishing

variable {pre post : List Handoff} {e : Handoff}

theorem reclaim_of_kept (he : e.disposition.isTerminal = true)
    (hle : terminal pre + terminal post ≤ 16) (hkept : Kept pre e.sequence post) :
    ∃ pre' post', pre'.Sublist pre ∧ post'.Sublist post ∧
      reclaim (pre ++ e :: post) = ⟨pre' ++ e :: post'⟩ := by
  have hcount : terminal (pre ++ e :: post) = terminal pre + terminal post + 1 := by
    rw [terminal_append, terminal_cons, if_pos he, Nat.add_assoc]
  by_cases hroom : terminal pre + terminal post < 16
  · exact ⟨pre, post, List.Sublist.refl pre, List.Sublist.refl post, reclaim_of_le (by omega)⟩
  · have hold := hkept.resolve_left hroom
    rcases dropOldestTerminal_of_mem pre post he with ⟨hold', -⟩ |
      ⟨-, pre', post', hpre, hpost, heq⟩
    · exact absurd hold' hold
    · exact ⟨pre', post', hpre, hpost, by rw [reclaim_of_eq (by omega), heq]⟩

theorem reclaim_of_not_kept (he : e.disposition.isTerminal = true)
    (hle : terminal pre + terminal post ≤ 16) (hkept : ¬Kept pre e.sequence post) :
    reclaim (pre ++ e :: post) = ⟨pre ++ post⟩ := by
  obtain ⟨hroom, hold⟩ := not_or.mp hkept
  have hcount : terminal (pre ++ e :: post) = 17 := by
    rw [terminal_append, terminal_cons, if_pos he]
    omega
  rcases dropOldestTerminal_of_mem pre post he with ⟨-, heq⟩ | ⟨hold', -⟩
  · rw [reclaim_of_eq hcount, heq]
  · exact absurd hold' hold

variable (hpre : ∀ x ∈ pre, x.isFor commit recipient payload = false)
  (hpost : ∀ x ∈ post, x.isFor commit recipient payload = false)

include hpre hpost

theorem not_isFor_append :
    ∀ x ∈ pre ++ post, x.isFor commit recipient payload = false := by
  intro x hx
  rcases List.mem_append.mp hx with hx | hx
  · exact hpre x hx
  · exact hpost x hx

/-- A handoff that is not terminal is reported if it is kept when it is accepted. -/
theorem reports_of_handedOff (hfor : e.isFor commit recipient payload = true)
    (hd : e.disposition = .handedOff) (hle : terminal pre + terminal post ≤ 16) :
    Reports commit ⟨pre ++ e :: post⟩ recipient payload e.ciphertext ↔
      Kept pre e.sequence post := by
  have haccept : accept commit ⟨pre ++ e :: post⟩ recipient payload =
      .ok (reclaim (pre ++ accepted e :: post)) :=
    accept_eq_ok_iff.mpr ⟨pre, e, post, rfl, hpre, hfor, .inl hd, rfl⟩
  constructor
  · rintro ⟨o', h, ho', hh, -, -⟩
    rw [haccept] at ho'
    obtain rfl := Except.ok.inj ho'
    by_contra hkept
    rw [reclaim_of_not_kept (e := accepted e) rfl hle hkept] at hh
    obtain ⟨pre', post', hsplit, -, hhfor⟩ := handoff_eq_ok_iff.mp hh
    have hmem : h ∈ (⟨pre ++ post⟩ : ControlOutbox).handoffs := by
      rw [hsplit]
      simp
    rw [not_isFor_append hpre hpost h hmem] at hhfor
    cases hhfor
  · intro hkept
    obtain ⟨pre', post', hpre', -, heq⟩ := reclaim_of_kept (e := accepted e) rfl hle hkept
    refine ⟨_, accepted e, haccept, handoff_eq_ok_iff.mpr ⟨pre', post', ?_, fun x hx =>
      hpre x (hpre'.mem hx), hfor⟩, rfl, rfl⟩
    rw [heq]

/-- A handoff that became terminal is reported if it was kept then. -/
theorem reports_of_exhausted (hfor : e.isFor commit recipient payload = true)
    (hd : e.disposition = .exhaustedUnknown) (hle : terminal pre + terminal post ≤ 16) :
    Reports commit (reclaim (pre ++ e :: post)) recipient payload e.ciphertext ↔
      Kept pre e.sequence post := by
  have he : e.disposition.isTerminal = true := by rw [hd]; rfl
  constructor
  · rintro ⟨o', h, ho', -⟩
    by_contra hkept
    rw [reclaim_of_not_kept he hle hkept] at ho'
    obtain ⟨pre', x, post', hsplit, -, hxfor, -⟩ := accept_eq_ok_iff.mp ho'
    have hmem : x ∈ (⟨pre ++ post⟩ : ControlOutbox).handoffs := by
      rw [hsplit]
      simp
    rw [not_isFor_append hpre hpost x hmem] at hxfor
    cases hxfor
  · intro hkept
    obtain ⟨pre', post', hpre', -, heq⟩ := reclaim_of_kept he hle hkept
    have hcount : terminal (pre' ++ accepted e :: post') ≤ 16 := by
      have hbound := terminal_reclaim (pre ++ e :: post)
      rw [heq, terminal_append, terminal_cons, if_pos he] at hbound
      rw [terminal_append, terminal_cons]
      exact hbound
    rw [heq]
    refine ⟨_, accepted e, accept_eq_ok_iff.mpr ⟨pre', e, post', rfl, fun x hx =>
      hpre x (hpre'.mem hx), hfor, .inr hd, rfl⟩, handoff_eq_ok_iff.mpr ⟨pre', post', ?_,
        fun x hx => hpre x (hpre'.mem hx), hfor⟩, rfl, rfl⟩
    rw [reclaim_of_le hcount]

end Finishing

/-- **Reserve, accept, report.** A reserved handoff can be accepted and reported with its ciphertext
exactly if, when it is reserved, fewer than sixteen terminal handoffs are retained, or one of them
was allocated before it. Handoffs with the same allocation number count in canonical order. -/
theorem reserved_reported_iff (calls : List ControlCall) (recipient : Member) (payload : Bytes)
    {o' : ControlOutbox} {r : Handoff}
    (hreserve : ((controlCalls commit).run empty calls).reserve commit recipient payload =
      .ok (o', r)) :
    ∃ h, ((controlCalls commit).run empty calls).handoff commit recipient payload = .ok h ∧
      h.ciphertext = r.ciphertext ∧
      (Reports commit o' recipient payload r.ciphertext ↔
        terminal ((controlCalls commit).run empty calls).handoffs < maxTerminalHandoffs ∨
          ∃ t ∈ ((controlCalls commit).run empty calls).handoffs, t.disposition.isTerminal = true ∧
            (t.sequence < h.sequence ∨
              t.sequence = h.sequence ∧ Handoff.canonicalOrder commit t h = .lt)) := by
  set o := (controlCalls commit).run empty calls
  have ho : Sound commit o := sound_run commit calls
  obtain ⟨pre, h, post, hsplit, hpre, hfor, hlive, rfl, rfl⟩ := reserve_eq_ok_iff.mp hreserve
  have hpost := ho.isFor_post hsplit hfor
  have hcount : terminal o.handoffs = terminal pre + terminal post := by
    rw [hsplit, terminal_append, terminal_cons, hlive]
    rfl
  have hle : terminal pre + terminal post ≤ 16 := hcount ▸ ho.terminal_le
  have hreports : Reports commit (reclaim (pre ++ reserved h :: post)) recipient payload
      (reserved h).ciphertext ↔ Kept pre h.sequence post := by
    by_cases hlast : h.attemptsReserved + 1 = maxAttempts
    · exact reports_of_exhausted hpre hpost (e := reserved h) hfor (if_pos hlast) hle
    · have hd : (reserved h).disposition = .handedOff := if_neg hlast
      have hwithin : terminal (pre ++ reserved h :: post) ≤ 16 := by
        rw [terminal_append, terminal_cons, hd]
        exact hle
      rw [reclaim_of_le hwithin]
      exact reports_of_handedOff hpre hpost (e := reserved h) hfor hd hle
  refine ⟨h, handoff_eq_ok_iff.mpr ⟨pre, post, hsplit, hpre, hfor⟩, rfl, ?_⟩
  rw [hreports, hcount]
  exact or_congr Iff.rfl (ho.not_oldest_iff hsplit hlive)

/-! ### Seventeen recipients -/

/-- One of the recipients. -/
def samplePeer (n : Nat) : Member := ⟨ascii "peer", [n.toUInt8]⟩

/-- The payload for all of them. -/
def samplePayload : Bytes := ((GroupPayload.roster Sample.genesis).encode.toOption).getD []

theorem reserved_reported_sample :
    Reports Sample.lengthCommitment
      ⟨[⟨samplePeer 0, samplePayload, [0], 1, .handedOff, 0⟩]⟩ (samplePeer 0) samplePayload
        [0] := by
  have hreserve : ((controlCalls Sample.lengthCommitment).run empty
      [.recordPrepared (samplePeer 0) samplePayload [0]]).reserve Sample.lengthCommitment
        (samplePeer 0) samplePayload =
          .ok (⟨[⟨samplePeer 0, samplePayload, [0], 1, .handedOff, 0⟩]⟩,
          ⟨samplePeer 0, samplePayload, [0], 1, .handedOff, 0⟩) := by decide +kernel
  obtain ⟨h, -, -, hiff⟩ := reserved_reported_iff _ _ _ hreserve
  exact hiff.mpr (.inl (by decide +kernel))

/-- A handoff is prepared for one recipient, then handoffs to sixteen others are prepared, reserved
and accepted. -/
def olderCalls : List ControlCall :=
  .recordPrepared (samplePeer 0) samplePayload [0] :: (List.range 16).flatMap fun n =>
    [.recordPrepared (samplePeer (n + 1)) samplePayload [0],
      .reserve (samplePeer (n + 1)) samplePayload, .accept (samplePeer (n + 1)) samplePayload]

/-- The first handoff is then reserved and accepted, and it is gone. If two of its attempts were
reserved before, the third reservation already drops it, and the acceptance is refused. -/
theorem oldest_not_reported :
    (((controlCalls Sample.lengthCommitment).run empty olderCalls).reserve Sample.lengthCommitment
        (samplePeer 0) samplePayload).map (fun reserved =>
          (reserved.1.accept Sample.lengthCommitment (samplePeer 0) samplePayload).map fun o =>
            o.handoff Sample.lengthCommitment (samplePeer 0) samplePayload) =
      .ok (.ok (.error .malformed)) ∧
    (((controlCalls Sample.lengthCommitment).run empty (olderCalls ++
        [.reserve (samplePeer 0) samplePayload, .reserve (samplePeer 0) samplePayload])).reserve
          Sample.lengthCommitment (samplePeer 0) samplePayload).map (fun reserved =>
            (reserved.1.accept Sample.lengthCommitment (samplePeer 0) samplePayload).map fun o =>
              o.handoff Sample.lengthCommitment (samplePeer 0) samplePayload) =
      .ok (.error .malformed) := by
  constructor <;> decide +kernel

end ControlOutbox

end Tacenta.Client
