import Tacenta.Client.ControlOutboxCodec
import Tacenta.Client.GroupRecords

/-!
# Another ciphertext in a control outbox

A commit that prepares a control is rehearsed with a placeholder in place of the ciphertext.
Recording another ciphertext makes the same outbox, up to the one handoff: the canonical order, the
bounds and the reclaimed handoffs do not depend on ciphertexts. What depends on them is the length
of the checkpoint, and the conflict with a ciphertext that was recorded before.

## Main definitions

* `Handoff.rewrite`: the handoff of a recipient and payload with another ciphertext.
* `HasRoom`: when a ciphertext can take the place of the placeholder.
* `RecordedAs`: what is recorded of a ciphertext.

## Main results

* `ControlOutbox.recordPrepared_rewrite`: recording another ciphertext.
* `RecordedAs.ciphertext`, `RecordedAs.refused`: what recording the placeholder says about a
  ciphertext.
-/

open ByteString Records Result Tacenta.Group

namespace Tacenta.Client

/-- The placeholder of a rehearsal. -/
abbrev placeholder : Bytes := [0]

/-! ### One handoff with another ciphertext -/

namespace Handoff

variable {commit : Bytes → Digest} {recipient : Member} {payload c : Bytes}

/-- The handoff of a recipient and payload with another ciphertext. -/
def rewrite (commit : Bytes → Digest) (recipient : Member) (payload c : Bytes) (h : Handoff) :
    Handoff :=
  if h.isFor commit recipient payload then { h with ciphertext := c } else h

theorem rewrite_of_isFor {h : Handoff} (hfor : h.isFor commit recipient payload = true) :
    h.rewrite commit recipient payload c = { h with ciphertext := c } := if_pos hfor

theorem rewrite_of_not_isFor {h : Handoff} (hfor : h.isFor commit recipient payload = false) :
    h.rewrite commit recipient payload c = h := if_neg (by rw [hfor]; exact Bool.false_ne_true)

theorem rewrite_eq (h : Handoff) : h.rewrite commit recipient payload c =
    { h with ciphertext := (h.rewrite commit recipient payload c).ciphertext } := by
  cases hfor : h.isFor commit recipient payload with
  | false => rw [rewrite_of_not_isFor hfor]
  | true => rw [rewrite_of_isFor hfor]

@[simp] theorem recipient_rewrite (h : Handoff) :
    (h.rewrite commit recipient payload c).recipient = h.recipient := by rw [rewrite_eq]

@[simp] theorem payload_rewrite (h : Handoff) :
    (h.rewrite commit recipient payload c).payload = h.payload := by rw [rewrite_eq]

@[simp] theorem disposition_rewrite (h : Handoff) :
    (h.rewrite commit recipient payload c).disposition = h.disposition := by rw [rewrite_eq]

@[simp] theorem sequence_rewrite (h : Handoff) :
    (h.rewrite commit recipient payload c).sequence = h.sequence := by rw [rewrite_eq]

theorem isFor_rewrite (h : Handoff) (r : Member) (p : Bytes) :
    (h.rewrite commit recipient payload c).isFor commit r p = h.isFor commit r p := by
  rw [isFor, isFor, recipient_rewrite, payload_rewrite]

theorem canonicalOrder_rewrite (a b : Handoff) :
    canonicalOrder commit (a.rewrite commit recipient payload c)
      (b.rewrite commit recipient payload c) = canonicalOrder commit a b := by
  simp only [canonicalOrder, recipient_rewrite, payload_rewrite]

theorem writable_rewrite {h : Handoff} (hw : h.Writable) (hc : c.length < 2 ^ 32) :
    (h.rewrite commit recipient payload c).Writable := by
  cases hfor : h.isFor commit recipient payload with
  | false =>
    rw [rewrite_of_not_isFor hfor]
    exact hw
  | true =>
    rw [rewrite_of_isFor hfor]
    exact ⟨hw.identity, hw.device, hw.payload, hc⟩

theorem length_layout_rewrite (h : Handoff) (b : Bytes) :
    (h.rewrite commit recipient payload c).layout.length +
        (if h.isFor commit recipient payload then b.length else 0) =
      (h.rewrite commit recipient payload b).layout.length +
        (if h.isFor commit recipient payload then c.length else 0) := by
  cases hfor : h.isFor commit recipient payload with
  | false =>
    rw [rewrite_of_not_isFor hfor, rewrite_of_not_isFor hfor]
    rfl
  | true =>
    rw [rewrite_of_isFor hfor, rewrite_of_isFor hfor]
    simp only [layout, List.length_append, length_lpBytes, if_true]
    omega

end Handoff

namespace ControlOutbox

variable {commit : Bytes → Digest} {recipient : Member} {payload c d : Bytes}
  {o o' : ControlOutbox} {l : List Handoff}

theorem sort_map_rewrite (l : List Handoff) :
    sort commit (l.map (Handoff.rewrite commit recipient payload c)) =
      (sort commit l).map (Handoff.rewrite commit recipient payload c) :=
  (List.map_insertionSort _ _ _ _ fun a _ b _ => by rw [Handoff.canonicalOrder_rewrite]).symm

theorem dropOldestTerminal_map_rewrite (l : List Handoff) :
    dropOldestTerminal (l.map (Handoff.rewrite commit recipient payload c)) =
      (dropOldestTerminal l).map (Handoff.rewrite commit recipient payload c) := by
  have hsequences : ((l.map (Handoff.rewrite commit recipient payload c)).filter
      fun h => h.disposition.isTerminal).map Handoff.sequence =
        (l.filter fun h => h.disposition.isTerminal).map Handoff.sequence := by
    rw [List.filter_map, List.map_map]
    simp only [Function.comp_def, Handoff.disposition_rewrite, Handoff.sequence_rewrite]
  rw [dropOldestTerminal, dropOldestTerminal, hsequences]
  cases ((l.filter fun h => h.disposition.isTerminal).map Handoff.sequence).min? with
  | none => rfl
  | some oldest =>
    simp only [List.eraseP_map, Function.comp_def, Handoff.disposition_rewrite,
      Handoff.sequence_rewrite]

theorem terminal_map_rewrite (l : List Handoff) :
    terminal (l.map (Handoff.rewrite commit recipient payload c)) = terminal l := by
  simp only [terminal, List.countP_map, Function.comp_def, Handoff.disposition_rewrite]

theorem reclaim_map_rewrite (l : List Handoff) :
    (reclaim (l.map (Handoff.rewrite commit recipient payload c))).handoffs =
      (reclaim l).handoffs.map (Handoff.rewrite commit recipient payload c) := by
  simp only [reclaim, terminal_map_rewrite]
  exact ((Function.Semiconj.iterate_right (fun l => (dropOldestTerminal_map_rewrite l).symm) _)
    l).symm

/-- The outbox with another ciphertext for a recipient and payload. -/
def rewrite (commit : Bytes → Digest) (recipient : Member) (payload c : Bytes)
    (o : ControlOutbox) : ControlOutbox :=
  ⟨o.handoffs.map (Handoff.rewrite commit recipient payload c)⟩

/-- Recording a ciphertext for a recipient and payload that have no handoff yet. -/
theorem recordPrepared_of_new
    (hnew : o.handoffs.find? (Handoff.isFor commit recipient payload) = none) (c : Bytes) :
    o.recordPrepared commit recipient payload c =
      if maxLiveHandoffs ≤ o.live ∨ (!Handoff.isControlPayload payload) = true then
        .error .outboxFull
      else .ok (reclaim (sort commit
        (o.handoffs ++ [⟨recipient, payload, c, 0, .prepared, o.nextSequence⟩]))) := by
  rw [recordPrepared, hnew]
  by_cases hfull : maxLiveHandoffs ≤ o.live ∨ (!Handoff.isControlPayload payload) = true
  · rw [if_pos hfull]
    change (refuseIf _ _ >>= fun _ => _) = _
    rw [refuseIf_pos hfull, error_bind]
  · rw [if_neg hfull]
    change (refuseIf _ _ >>= fun _ => _) = _
    rw [refuseIf_neg hfull]
    rfl

theorem map_rewrite_of_new
    (hnew : o.handoffs.find? (Handoff.isFor commit recipient payload) = none) (c : Bytes) :
    o.handoffs.map (Handoff.rewrite commit recipient payload c) = o.handoffs := by
  refine (List.map_congr_left fun h hh => ?_).trans (List.map_id _)
  exact Handoff.rewrite_of_not_isFor (Bool.eq_false_iff.mpr (List.find?_eq_none.mp hnew h hh))

/-- Recording another ciphertext for a recipient and payload that have no handoff yet. -/
theorem recordPrepared_rewrite
    (hnew : o.handoffs.find? (Handoff.isFor commit recipient payload) = none) (c d : Bytes) :
    o.recordPrepared commit recipient payload c =
      (o.recordPrepared commit recipient payload d).map (rewrite commit recipient payload c) := by
  rw [recordPrepared_of_new hnew, recordPrepared_of_new hnew]
  split
  · rfl
  · refine congrArg Except.ok (congrArg ControlOutbox.mk ?_)
    have hprepared : Handoff.isFor commit recipient payload
        ⟨recipient, payload, d, 0, .prepared, o.nextSequence⟩ = true := decide_eq_true ⟨rfl, rfl⟩
    change _ = List.map _ (reclaim _).handoffs
    rw [← reclaim_map_rewrite, ← sort_map_rewrite, List.map_append, map_rewrite_of_new hnew,
      List.map_singleton, Handoff.rewrite_of_isFor hprepared]
    rfl

theorem handoff_rewrite {h : Handoff} (hok : o.handoff commit recipient payload = .ok h) :
    (o.rewrite commit recipient payload c).handoff commit recipient payload =
      .ok (h.rewrite commit recipient payload c) := by
  obtain ⟨pre, post, hsplit, hpre, hfor⟩ := handoff_eq_ok_iff.mp hok
  refine handoff_eq_ok_iff.mpr ⟨pre.map (Handoff.rewrite commit recipient payload c),
    post.map (Handoff.rewrite commit recipient payload c), ?_, fun x hx => ?_, ?_⟩
  · rw [rewrite, hsplit, List.map_append, List.map_cons]
  · obtain ⟨y, hy, rfl⟩ := List.mem_map.mp hx
    rw [Handoff.isFor_rewrite]
    exact hpre y hy
  · rw [Handoff.isFor_rewrite]
    exact hfor

/-! ### The length of a checkpoint -/

theorem length_layout (o : ControlOutbox) : o.layout.length =
    controlOutboxDomain.length + 1 + (o.handoffs.map fun h => h.layout.length).sum := by
  rw [layout, List.length_append, List.length_cons, List.length_flatMap]
  omega

theorem length_layout_sort (o : ControlOutbox) :
    (layout ⟨sort commit o.handoffs⟩).length = o.layout.length := by
  simp only [layout, List.length_append, List.length_cons,
    ((@perm_sort commit o.handoffs).flatMap_right Handoff.layout).length_eq]

/-- Each handoff of the recipient and payload takes the length of its ciphertext. -/
theorem length_layout_rewrite (o : ControlOutbox) (c b : Bytes) :
    (o.rewrite commit recipient payload c).layout.length +
        o.handoffs.countP (Handoff.isFor commit recipient payload) * b.length =
      (o.rewrite commit recipient payload b).layout.length +
        o.handoffs.countP (Handoff.isFor commit recipient payload) * c.length := by
  rw [length_layout, length_layout, rewrite, rewrite, List.map_map, List.map_map]
  induction o.handoffs with
  | nil => simp only [List.map_nil, List.countP_nil, Nat.zero_mul]
  | cons h l ih =>
    have hhead := @Handoff.length_layout_rewrite commit recipient payload c h b
    simp only [List.map_cons, List.sum_cons, Function.comp_apply] at ih ⊢
    cases hfor : h.isFor commit recipient payload with
    | false =>
      rw [hfor] at hhead
      rw [List.countP_cons_of_neg (by rw [hfor]; exact Bool.false_ne_true)]
      simp only [Bool.false_eq_true, if_false] at hhead
      omega
    | true =>
      rw [hfor] at hhead
      rw [List.countP_cons_of_pos hfor, Nat.add_mul, Nat.add_mul]
      simp only [if_true] at hhead
      omega

theorem countP_dropOldestTerminal {p : Handoff → Bool} (l : List Handoff)
    (hp : ∀ h ∈ l, p h = true → h.disposition.isTerminal = false) :
    (dropOldestTerminal l).countP p = l.countP p := by
  rcases dropOldestTerminal_cases l with ⟨-, h⟩ | ⟨pre, e, post, rfl, he, -, h⟩
  · rw [h]
  · have hnot : ¬p e = true := by
      intro hpe
      rw [hp e (List.mem_append_right _ List.mem_cons_self) hpe] at he
      cases he
    rw [h, List.countP_append, List.countP_append, List.countP_cons_of_neg hnot]

theorem countP_reclaim {p : Handoff → Bool} (l : List Handoff)
    (hp : ∀ h ∈ l, p h = true → h.disposition.isTerminal = false) :
    (reclaim l).handoffs.countP p = l.countP p := by
  rw [reclaim]
  generalize terminal l - maxTerminalHandoffs = count
  induction count generalizing l with
  | zero => rfl
  | succ count ih =>
    rw [Function.iterate_succ_apply, ← countP_dropOldestTerminal l hp]
    exact ih _ fun h hh => hp h ((sublist_dropOldestTerminal l).subset hh)

theorem countP_of_recorded
    (hnew : o.handoffs.find? (Handoff.isFor commit recipient payload) = none)
    (h : o.recordPrepared commit recipient payload c = .ok o') :
    o'.handoffs.countP (Handoff.isFor commit recipient payload) = 1 := by
  have hother : ∀ h ∈ o.handoffs, ¬h.isFor commit recipient payload = true :=
    List.find?_eq_none.mp hnew
  rw [recordPrepared_of_new hnew] at h
  split at h
  · cases h
  · obtain rfl := Except.ok.inj h
    have hperm := @perm_sort commit
      (o.handoffs ++ [⟨recipient, payload, c, 0, .prepared, o.nextSequence⟩])
    have hprepared : Handoff.isFor commit recipient payload
        ⟨recipient, payload, c, 0, .prepared, o.nextSequence⟩ = true := decide_eq_true ⟨rfl, rfl⟩
    rw [countP_reclaim _ fun h hh hfor => ?_, hperm.countP_eq, List.countP_append,
      List.countP_eq_zero.mpr hother, List.countP_singleton, if_pos hprepared]
    rcases List.mem_append.mp (hperm.mem_iff.mp hh) with hmem | hmem
    · exact absurd hfor (hother h hmem)
    · rw [List.mem_singleton.mp hmem]
      rfl

/-! ### A ciphertext in the place of the placeholder -/

/-- The ciphertext can take the place of the placeholder: no ciphertext is recorded yet for the
recipient and payload, unless it is this one, and the checkpoint stays short. -/
structure HasRoom (commit : Bytes → Digest) (o : ControlOutbox) (recipient : Member)
    (payload c : Bytes) : Prop where
  new : c = placeholder ∨ o.handoffs.find? (Handoff.isFor commit recipient payload) = none
  short : ∀ o' state, o.recordPrepared commit recipient payload placeholder = .ok o' →
    o'.encodeState commit = .ok state → state.length + c.length ≤ 2 ^ 32

instance : Decidable (HasRoom commit o recipient payload c) :=
  decidable_of_iff
    ((c = placeholder ∨ o.handoffs.find? (Handoff.isFor commit recipient payload) = none) ∧
      ((o.recordPrepared commit recipient payload placeholder).toOption.all fun o' =>
        (o'.encodeState commit).toOption.all fun state =>
          decide (state.length + c.length ≤ 2 ^ 32)) = true) <| by
    refine ⟨fun h => ⟨h.1, fun o' state ho' hstate => ?_⟩, fun h => ⟨h.new, ?_⟩⟩
    · have hshort := h.2
      rw [ho'] at hshort
      change Option.all _ (o'.encodeState commit).toOption = true at hshort
      rw [hstate] at hshort
      exact of_decide_eq_true hshort
    · cases ho' : o.recordPrepared commit recipient payload placeholder with
      | error e => rfl
      | ok o' =>
        change Option.all _ (o'.encodeState commit).toOption = true
        cases hstate : o'.encodeState commit with
        | error e => rfl
        | ok state => exact decide_eq_true (h.short o' state ho' hstate)

theorem encodeState_rewrite {state : Bytes} (hc : c.length < 2 ^ 32)
    (h : o.encodeState commit = .ok state) :
    ∃ state', (o.rewrite commit recipient payload c).encodeState commit = .ok state' ∧
      state'.length = (o.rewrite commit recipient payload c).layout.length := by
  obtain ⟨hbounds, hwritable, -⟩ := encodeState_eq_ok_iff.mp h
  refine ⟨_, encodeState_eq_ok_iff.mpr ⟨?_, fun x hx => ?_, rfl⟩, length_layout_sort _⟩
  · have hlive : (o.rewrite commit recipient payload c).live = o.live := by
      simp only [live, rewrite, List.countP_map, Function.comp_def, Handoff.disposition_rewrite]
    rw [hlive, rewrite, terminal_map_rewrite]
    exact hbounds
  · obtain ⟨y, hy, rfl⟩ := List.mem_map.mp hx
    exact Handoff.writable_rewrite (hwritable y hy) hc

theorem length_of_recorded {state : Bytes}
    (hnew : o.handoffs.find? (Handoff.isFor commit recipient payload) = none)
    (h : o.recordPrepared commit recipient payload placeholder = .ok o')
    (hstate : o'.encodeState commit = .ok state) (c : Bytes) :
    (o'.rewrite commit recipient payload c).layout.length + 1 = state.length + c.length := by
  obtain ⟨-, -, rfl⟩ := encodeState_eq_ok_iff.mp hstate
  have hsame : o'.rewrite commit recipient payload placeholder = o' := by
    have hrewrite := recordPrepared_rewrite hnew placeholder placeholder
    rw [h] at hrewrite
    exact (Except.ok.inj hrewrite).symm
  have hlength := @length_layout_rewrite commit recipient payload o' c placeholder
  rw [countP_of_recorded hnew h, hsame, Nat.one_mul, Nat.one_mul] at hlength
  rw [length_layout_sort]
  exact hlength

end ControlOutbox

/-- A checkpoint record is refused only for its length. -/
theorem encodeCheckpointRecord_eq (tag state : Bytes) :
    encodeCheckpointRecord tag state =
      if state.length < 2 ^ 32 then .ok (tag ++ lpBytes state) else .error .policy := by
  split
  · next h => exact policy_eq_ok.mpr (putLp_eq_ok.mpr ⟨h, rfl⟩)
  · next h =>
    rw [encodeCheckpointRecord, putLp, putU32, refuseIf_pos (Nat.not_lt.mp h)]
    rfl

section Recording

open ControlOutbox

variable {commit : Bytes → Digest} {recipient : Member} {payload c : Bytes}
  {o o₀ : ControlOutbox} {state₀ record₀ : Bytes}

/-- What is recorded of a ciphertext that has room. -/
structure RecordedAs (commit : Bytes → Digest) (o : ControlOutbox) (recipient : Member)
    (payload c : Bytes) (o' : ControlOutbox) (state record : Bytes) : Prop where
  prepared : o.recordPrepared commit recipient payload c = .ok o'
  state_eq : o'.encodeState commit = .ok state
  record_eq : encodeControlOutboxRecord state = .ok record

/-- **One ciphertext for another.** What was recorded of the placeholder is recorded of every
ciphertext that has room. -/
theorem RecordedAs.ciphertext
    (h : RecordedAs commit o recipient payload placeholder o₀ state₀ record₀)
    (hc : c.length < 2 ^ 32) (hroom : HasRoom commit o recipient payload c) :
    ∃ o' state record, RecordedAs commit o recipient payload c o' state record ∧
      ∀ h₀, o₀.handoff commit recipient payload = .ok h₀ →
        ∃ h', o'.handoff commit recipient payload = .ok h' := by
  rcases hroom.new with rfl | hnew
  · exact ⟨o₀, state₀, record₀, h, fun h₀ hh₀ => ⟨h₀, hh₀⟩⟩
  · obtain ⟨state, hstate, hlength⟩ := encodeState_rewrite hc h.state_eq
    have hshort := hroom.short o₀ state₀ h.prepared h.state_eq
    rw [← length_of_recorded hnew h.prepared h.state_eq c, ← hlength] at hshort
    refine ⟨_, state, ascii "TCGO" ++ lpBytes state, ⟨?_, hstate, ?_⟩,
      fun h₀ hh₀ => ⟨_, handoff_rewrite hh₀⟩⟩
    · rw [recordPrepared_rewrite hnew c placeholder, h.prepared]
      rfl
    · exact (encodeCheckpointRecord_eq _ _).trans (if_pos hshort)

/-- A ciphertext that has no room is refused. -/
theorem RecordedAs.refused (h : RecordedAs commit o recipient payload placeholder o₀ state₀ record₀)
    (hc : c.length < 2 ^ 32) (hroom : ¬HasRoom commit o recipient payload c) :
    o.recordPrepared commit recipient payload c = .error .conflict ∨
      ∃ o' state, o.recordPrepared commit recipient payload c = .ok o' ∧
        o'.encodeState commit = .ok state ∧ encodeControlOutboxRecord state = .error .policy := by
  have hfits : state₀.length < 2 ^ 32 := by
    have hrecord := h.record_eq
    rw [encodeControlOutboxRecord, encodeCheckpointRecord_eq] at hrecord
    by_contra hlong
    rw [if_neg hlong] at hrecord
    cases hrecord
  cases hfind : o.handoffs.find? (Handoff.isFor commit recipient payload) with
  | some existing =>
    left
    have hprepared := h.prepared
    rw [recordPrepared, hfind] at hprepared
    obtain ⟨hsame, -⟩ := refuseIf_bind_eq_ok.mp hprepared
    rw [not_or, not_not, not_not] at hsame
    have hother : existing.ciphertext ≠ c := by
      rintro rfl
      refine hroom ⟨.inl hsame.2, fun o' state ho' hstate => ?_⟩
      rw [h.prepared] at ho'
      obtain rfl := Except.ok.inj ho'
      rw [h.state_eq] at hstate
      obtain rfl := Except.ok.inj hstate
      rw [hsame.2]
      exact hfits
    rw [recordPrepared, hfind]
    change (refuseIf _ _ >>= fun _ => _) = _
    rw [refuseIf_pos (.inr hother), error_bind]
  | none =>
    right
    obtain ⟨state, hstate, hlength⟩ := encodeState_rewrite hc h.state_eq
    refine ⟨_, state, ?_, hstate, (encodeCheckpointRecord_eq _ _).trans (if_neg fun hshort => ?_)⟩
    · rw [recordPrepared_rewrite hfind c placeholder, h.prepared]
      rfl
    · refine hroom ⟨.inr hfind, fun o' state' ho' hstate' => ?_⟩
      rw [h.prepared] at ho'
      obtain rfl := Except.ok.inj ho'
      rw [h.state_eq] at hstate'
      obtain rfl := Except.ok.inj hstate'
      rw [← length_of_recorded hfind h.prepared h.state_eq c, ← hlength]
      exact hshort

end Recording

end Tacenta.Client
