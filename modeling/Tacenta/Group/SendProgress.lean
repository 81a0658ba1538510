import Tacenta.Group.Transcript
import Tacenta.Library.Execution

/-!
# The progress of a recipient

A logical send changes by four calls. Seen from one recipient, a run of calls is a walk through the
dispositions of that recipient alone: its ciphertext is set once, it has at most three attempts, and
a finished recipient stays as it is.

## Main definitions

* `SendCall`, `sendCalls`: the calls of a logical send, as a machine.
* `RecipientProgress.Sound`: what each disposition says about ciphertext and attempts.
* `RecipientProgress.Later`: what may change of a recipient between two moments of a run.
* `reservations`: the successful reservations for a recipient.

## Main results

* `recipient_progress`: the progress of a recipient over every run of a new send.
-/

open Records Result

namespace Tacenta.Group

/-! ### One recipient -/

namespace RecipientProgress

variable {p q r : RecipientProgress}

/-- The commitment and the ciphertext are there. -/
def Stored (p : RecipientProgress) : Prop :=
  p.contextCommitment.isSome ∧ p.ciphertext.isSome

/-- The attempts and the stored bytes fit the disposition. -/
def Sound (p : RecipientProgress) : Prop :=
  match p.disposition with
  | .pending => p.contextCommitment = none ∧ p.ciphertext = none ∧ p.attemptsReserved = 0
  | .prepared => p.Stored ∧ p.attemptsReserved = 0
  | .handedOff => p.Stored ∧ (p.attemptsReserved = 1 ∨ p.attemptsReserved = 2)
  | .relayAccepted => p.Stored ∧ p.attemptsReserved ≤ 3
  | .cancelled => p.attemptsReserved = 0
  | .cancelledAfterHandoff => p.Stored ∧ (p.attemptsReserved = 1 ∨ p.attemptsReserved = 2)
  | .exhaustedUnknown => p.Stored ∧ p.attemptsReserved = 3

/-- The recipient never changes again. -/
def Settled (p : RecipientProgress) : Prop :=
  p.disposition = .relayAccepted ∨ p.disposition = .cancelled ∨
    p.disposition = .cancelledAfterHandoff

/-- What may change of a recipient: the commitment and the ciphertext are set once, a settled
recipient stays, and an exhausted one is at most accepted. -/
structure Later (p q : RecipientProgress) : Prop where
  recipient_eq : q.recipient = p.recipient
  commitment_kept : ∀ c, p.contextCommitment = some c → q.contextCommitment = some c
  ciphertext_kept : ∀ c, p.ciphertext = some c → q.ciphertext = some c
  settled_kept : p.Settled → q = p
  exhausted_kept : p.disposition = .exhaustedUnknown →
    q = p ∨ q = { p with disposition := .relayAccepted }

theorem Later.refl (p : RecipientProgress) : Later p p :=
  ⟨rfl, fun _ => id, fun _ => id, fun _ => rfl, fun _ => .inl rfl⟩

theorem Later.trans (h : Later p q) (h' : Later q r) : Later p r where
  recipient_eq := h'.recipient_eq.trans h.recipient_eq
  commitment_kept c hc := h'.commitment_kept c (h.commitment_kept c hc)
  ciphertext_kept c hc := h'.ciphertext_kept c (h.ciphertext_kept c hc)
  settled_kept hp := by
    have hq := h.settled_kept hp
    exact (h'.settled_kept (hq ▸ hp)).trans hq
  exhausted_kept hp := by
    rcases h.exhausted_kept hp with rfl | rfl
    · exact h'.exhausted_kept hp
    · exact .inr (h'.settled_kept (.inl rfl))

/-- An unfinished recipient may change in all but the stored bytes. -/
theorem Later.of_open (h : p.disposition.isTerminal = false)
    (hrecipient : q.recipient = p.recipient)
    (hcommitment : ∀ c, p.contextCommitment = some c → q.contextCommitment = some c)
    (hciphertext : ∀ c, p.ciphertext = some c → q.ciphertext = some c) : Later p q := by
  refine ⟨hrecipient, hcommitment, hciphertext, fun hp => ?_, fun hp => ?_⟩
  · rcases hp with hp | hp | hp <;> rw [hp] at h <;> cases h
  · rw [hp] at h
    cases h

/-- What a method of a recipient does: it changes the recipient as allowed, it changes nothing when
it refuses, and it counts the attempts that it reserves. -/
structure Proper (n : UInt8) (p : RecipientProgress)
    (result : RecipientProgress × Except Error Unit) : Prop where
  sound : result.1.Sound
  later : p.Later result.1
  refused : ∀ e, result.2 = .error e → result.1 = p
  attempts : result.2 = .ok () → result.1.attemptsReserved = p.attemptsReserved + n

theorem Proper.refusal (h : p.Sound) (e : Error) (n : UInt8) : Proper n p (p, .error e) :=
  ⟨h, .refl p, fun _ _ => rfl, fun h => by cases h⟩

theorem Proper.success {n : UInt8} (h : q.Sound) (hlater : p.Later q)
    (hattempts : q.attemptsReserved = p.attemptsReserved + n) : Proper n p (q, .ok ()) :=
  ⟨h, hlater, fun _ h => (by cases h), fun _ => hattempts⟩

theorem proper_recordPrepared (h : p.Sound) (commitment : Digest) (ciphertext : Bytes) :
    Proper 0 p (recordPrepared commitment ciphertext p) := by
  obtain ⟨recipient, disposition, com, ct, attempts⟩ := p
  cases disposition
  case pending =>
    obtain ⟨rfl, rfl, rfl⟩ := h
    exact .success ⟨⟨rfl, rfl⟩, rfl⟩
      (.of_open rfl rfl (fun _ hc => by cases hc) (fun _ hc => by cases hc)) rfl
  case prepared | handedOff =>
    rw [recordPrepared]
    dsimp only
    split
    · exact .success h (.refl _) (UInt8.add_zero _).symm
    · exact .refusal h _ 0
  all_goals exact .refusal h _ 0

/-- A recipient in flight with fewer than three attempts gets another one. -/
theorem reserveHandoff_of_inFlight (h : p.InFlight) (hct : p.ciphertext ≠ none)
    (hattempts : ¬3 ≤ p.attemptsReserved) :
    p.reserveHandoff = ({ p with
      attemptsReserved := p.attemptsReserved + 1
      disposition := if p.attemptsReserved + 1 = 3 then .exhaustedUnknown else .handedOff },
      .ok ()) := by
  rcases h with h | h <;> rw [reserveHandoff, h] <;> simp only [if_neg hct, if_neg hattempts]

theorem Sound.reserveHandoff_eq (h : p.Sound) (hflight : p.InFlight) :
    p.reserveHandoff = ({ p with
      attemptsReserved := p.attemptsReserved + 1
      disposition := if p.attemptsReserved + 1 = 3 then .exhaustedUnknown else .handedOff },
      .ok ()) := by
  have hstored : p.Stored ∧ (p.attemptsReserved = 0 ∨ p.attemptsReserved = 1 ∨
      p.attemptsReserved = 2) := by
    rcases hflight with hd | hd
    · simp only [Sound, hd] at h
      exact ⟨h.1, .inl h.2⟩
    · simp only [Sound, hd] at h
      exact ⟨h.1, .inr h.2⟩
  refine reserveHandoff_of_inFlight hflight (Option.isSome_iff_ne_none.mp hstored.1.2) ?_
  rcases hstored.2 with ha | ha | ha <;> rw [ha] <;> decide

theorem proper_reserveHandoff (h : p.Sound) : Proper 1 p p.reserveHandoff := by
  cases hd : p.disposition
  case prepared =>
    rw [h.reserveHandoff_eq (.inl hd)]
    simp only [Sound, hd] at h
    refine .success ?_ (.of_open (by rw [hd]; rfl) rfl (fun _ => id) fun _ => id) rfl
    rw [h.2]
    exact ⟨h.1, .inl rfl⟩
  case handedOff =>
    rw [h.reserveHandoff_eq (.inr hd)]
    simp only [Sound, hd] at h
    refine .success ?_ (.of_open (by rw [hd]; rfl) rfl (fun _ => id) fun _ => id) rfl
    rcases h.2 with ha | ha <;> rw [ha]
    · exact ⟨h.1, .inr rfl⟩
    · exact ⟨h.1, rfl⟩
  all_goals
    simp only [reserveHandoff, hd]
    exact .refusal h _ 1

theorem Sound.attempts_le (h : p.Sound) : p.attemptsReserved ≤ 3 := by
  have hcases : p.attemptsReserved ≤ 3 ∨ p.attemptsReserved = 0 ∨ p.attemptsReserved = 1 ∨
      p.attemptsReserved = 2 ∨ p.attemptsReserved = 3 := by
    cases hd : p.disposition <;> simp only [Sound, hd] at h <;> tauto
  rcases hcases with h | h | h | h | h
  · exact h
  all_goals
    rw [h]
    decide

theorem proper_recordRelayAccepted (h : p.Sound) : Proper 0 p p.recordRelayAccepted := by
  have hle := h.attempts_le
  cases hd : p.disposition <;> simp only [recordRelayAccepted, hd]
  case handedOff =>
    simp only [Sound, hd] at h
    exact .success ⟨h.1, hle⟩ (.of_open (by rw [hd]; rfl) rfl (fun _ => id) fun _ => id)
      (UInt8.add_zero _).symm
  case exhaustedUnknown =>
    simp only [Sound, hd] at h
    refine .success ⟨h.1, hle⟩ ⟨rfl, fun _ => id, fun _ => id, fun hp => ?_, fun _ => .inr rfl⟩
      (UInt8.add_zero _).symm
    rcases hp with hp | hp | hp <;> rw [hd] at hp <;> cases hp
  all_goals exact .refusal h _ 0

theorem proper_cancel (h : p.Sound) : Proper 0 p (p.cancel, .ok ()) := by
  cases hd : p.disposition <;> simp only [cancel, hd]
  case pending =>
    simp only [Sound, hd] at h
    exact .success h.2.2 (.of_open (by rw [hd]; rfl) rfl (fun _ => id) fun _ => id)
      (UInt8.add_zero _).symm
  case prepared =>
    simp only [Sound, hd] at h
    exact .success h.2 (.of_open (by rw [hd]; rfl) rfl (fun _ => id) fun _ => id)
      (UInt8.add_zero _).symm
  case handedOff =>
    simp only [Sound, hd] at h
    exact .success h (.of_open (by rw [hd]; rfl) rfl (fun _ => id) fun _ => id)
      (UInt8.add_zero _).symm
  all_goals exact .success h (.refl _) (UInt8.add_zero _).symm

end RecipientProgress

/-! ### Calls -/

/-- A call of a logical send. -/
inductive SendCall where
  | recordPrepared (recipient : Member) (contextCommitment : Digest) (ciphertext : Bytes)
  | reserveHandoff (recipient : Member)
  | recordRelayAccepted (recipient : Member)
  | cancelForNewerRoster (revision : UInt64)
  deriving DecidableEq

namespace SendCall

/-- The recipient that a call names. -/
def recipient? : SendCall → Option Member
  | recordPrepared recipient _ _ | reserveHandoff recipient | recordRelayAccepted recipient =>
    some recipient
  | cancelForNewerRoster _ => none

/-- What a call does to a recipient that it concerns, in a send at a revision. -/
def method (revision : UInt64) :
    SendCall → RecipientProgress → RecipientProgress × Except Error Unit
  | recordPrepared _ contextCommitment ciphertext, p =>
    p.recordPrepared contextCommitment ciphertext
  | reserveHandoff _, p => p.reserveHandoff
  | recordRelayAccepted _, p => p.recordRelayAccepted
  | cancelForNewerRoster newer, p => (if newer ≤ revision then p else p.cancel, .ok ())

/-- The number of attempts that a successful call reserves. -/
def reserved : SendCall → UInt8
  | reserveHandoff _ => 1
  | _ => 0

theorem proper_method (call : SendCall) (revision : UInt64) {p : RecipientProgress}
    (h : p.Sound) : p.Proper call.reserved (call.method revision p) := by
  cases call with
  | recordPrepared r com ct => exact RecipientProgress.proper_recordPrepared h com ct
  | reserveHandoff r => exact RecipientProgress.proper_reserveHandoff h
  | recordRelayAccepted r => exact RecipientProgress.proper_recordRelayAccepted h
  | cancelForNewerRoster newer =>
    rw [method]
    split
    · exact .success h (.refl p) (UInt8.add_zero _).symm
    · exact RecipientProgress.proper_cancel h

end SendCall

/-- The calls of a logical send, each with the recipient that it answers with. -/
def sendCalls : Machine LogicalSend SendCall (Except Error (Option RecipientProgress))
  | s, .recordPrepared recipient contextCommitment ciphertext =>
    Prod.map id (Except.map some) (s.recordPrepared recipient contextCommitment ciphertext)
  | s, .reserveHandoff recipient => Prod.map id (Except.map some) (s.reserveHandoff recipient)
  | s, .recordRelayAccepted recipient =>
    Prod.map id (Except.map some) (s.recordRelayAccepted recipient)
  | s, .cancelForNewerRoster revision => (s.cancelForNewerRoster revision, .ok none)

namespace LogicalSend

variable {s : LogicalSend} {x r : Member} {p q : RecipientProgress}
  {pre post : List RecipientProgress}

theorem splits_or (s : LogicalSend) (r : Member) :
    (∃ pre p post, s.Splits r pre p post) ∨ ∀ p ∈ s.recipients, p.recipient ≠ r := by
  rcases split_first (fun p : RecipientProgress => decide (p.recipient = r)) s.recipients with
    ⟨pre, p, post, hs, hpre, hp⟩ | hnone
  · exact .inl ⟨pre, p, post, hs, fun x hx => of_decide_eq_false (hpre x hx), of_decide_eq_true hp⟩
  · exact .inr fun p hp => of_decide_eq_false (hnone p hp)

/-- A method on one recipient changes that recipient and answers with it. -/
theorem Splits.onProgress_eq (h : s.Splits r pre p post)
    (m : RecipientProgress → RecipientProgress × Except Error Unit) :
    s.onProgress r m = ({ s with recipients := pre ++ (m p).1 :: post },
      (m p).2.map fun _ => (m p).1) := by
  have hpre : ∀ x ∈ pre, decide (x.recipient = r) = false :=
    fun x hx => decide_eq_false (h.before x hx)
  rw [onProgress, h.recipients_eq, updateFirst_append hpre (decide_eq_true h.recipient_eq)]
  rfl

theorem onProgress_of_forall_ne (h : ∀ p ∈ s.recipients, p.recipient ≠ r)
    (m : RecipientProgress → RecipientProgress × Except Error Unit) :
    s.onProgress r m = (s, .error .notMember) := by
  rw [onProgress, updateFirst_of_forall fun p hp => decide_eq_false (h p hp)]

theorem Splits.progress_replace (h : s.Splits r pre p post) (hq : q.recipient = r) (x : Member) :
    ({ s with recipients := pre ++ q :: post } : LogicalSend).progress x =
      if x = r then .ok q else s.progress x := by
  by_cases hx : x = r
  · subst hx
    rw [if_pos rfl]
    have hsplit : Splits { s with recipients := pre ++ q :: post } x pre q post :=
      ⟨rfl, h.before, hq⟩
    exact hsplit.progress_eq
  · have hother : ∀ y : RecipientProgress, y.recipient = r →
        (y :: post).find? (fun p => p.recipient = x) = post.find? fun p => p.recipient = x :=
      fun y hy => List.find?_cons_of_neg (by rw [hy, decide_eq_true_eq]; exact fun h => hx h.symm)
    rw [if_neg hx, progress, progress, h.recipients_eq]
    simp only [List.find?_append, hother q hq, hother p h.recipient_eq]

def Sound (s : LogicalSend) : Prop := ∀ p ∈ s.recipients, p.Sound

theorem Sound.progress (h : s.Sound) (hp : s.progress x = .ok p) : p.Sound := by
  obtain ⟨pre, post, hsplit⟩ := exists_splits hp
  exact h p (by rw [hsplit.recipients_eq]; simp)

end LogicalSend

/-! ### Calls seen from one recipient -/

section Step

variable {s : LogicalSend} {call : SendCall} {x r : Member} {p q : RecipientProgress}

theorem SendCall.recipient_method (call : SendCall) (revision : UInt64) (p : RecipientProgress) :
    (call.method revision p).1.recipient = p.recipient := by
  cases call with
  | recordPrepared recipient commitment ciphertext =>
    exact RecipientProgress.recipient_recordPrepared commitment ciphertext p
  | reserveHandoff recipient => exact RecipientProgress.recipient_reserveHandoff p
  | recordRelayAccepted recipient => exact RecipientProgress.recipient_recordRelayAccepted p
  | cancelForNewerRoster newer =>
    rw [method]
    split
    · rfl
    · exact RecipientProgress.recipient_cancel p

theorem sendCalls_of_recipient (hr : call.recipient? = some r) :
    sendCalls s call =
      Prod.map id (Except.map some) (s.onProgress r (call.method s.id.revision)) := by
  cases call <;> cases hr <;> rfl

theorem sendCalls_of_none (hr : call.recipient? = none) :
    sendCalls s call = ({ s with
      recipients := s.recipients.map fun p => (call.method s.id.revision p).1 }, .ok none) := by
  cases call <;> cases hr
  rw [sendCalls, LogicalSend.cancelForNewerRoster]
  simp only [SendCall.method]
  split
  · rw [List.map_id']
  · rfl

/-- The call may change the recipient. -/
def SendCall.Concerns (call : SendCall) (x : Member) : Prop := ∀ r, call.recipient? = some r → r = x

instance (call : SendCall) (x : Member) : Decidable (call.Concerns x) :=
  inferInstanceAs (Decidable (∀ r ∈ call.recipient?, r = x))

/-- A call changes each recipient that it concerns by its method, and no other. -/
theorem progress_sendCalls (h : s.progress x = .ok p) :
    (sendCalls s call).1.progress x =
      .ok (if call.Concerns x then (call.method s.id.revision p).1 else p) := by
  cases hr : call.recipient? with
  | none =>
    have hconcerns : call.Concerns x := fun r h => by rw [hr] at h; cases h
    obtain ⟨pre, post, hsplit⟩ := LogicalSend.exists_splits h
    rw [sendCalls_of_none hr, if_pos hconcerns]
    refine @LogicalSend.Splits.progress_eq _ x (pre.map fun p => (call.method s.id.revision p).1)
      (post.map fun p => (call.method s.id.revision p).1) _ ⟨?_, ?_, ?_⟩
    · simp only [hsplit.recipients_eq, List.map_append, List.map_cons]
    · intro y hy
      obtain ⟨z, hz, rfl⟩ := List.mem_map.mp hy
      rw [SendCall.recipient_method]
      exact hsplit.before z hz
    · rw [SendCall.recipient_method]
      exact hsplit.recipient_eq
  | some r =>
    have hconcerns : call.Concerns x ↔ r = x :=
      ⟨fun h => h r hr, fun h r' hr' => by rw [hr] at hr'; cases hr'; exact h⟩
    rw [sendCalls_of_recipient hr]
    rcases s.splits_or r with ⟨pre, y, post, hsplit⟩ | hnone
    · rw [hsplit.onProgress_eq]
      refine (hsplit.progress_replace ?_ x).trans ?_
      · rw [SendCall.recipient_method]
        exact hsplit.recipient_eq
      · by_cases hx : x = r
        · subst hx
          obtain rfl : y = p := Except.ok.inj (hsplit.progress_eq.symm.trans h)
          rw [if_pos rfl, if_pos (hconcerns.mpr rfl)]
        · rw [if_neg hx, if_neg fun h => hx (hconcerns.mp h).symm, h]
    · have hx : ¬call.Concerns x := by
        intro hx
        obtain rfl := hconcerns.mp hx
        obtain ⟨pre, post, hsplit⟩ := LogicalSend.exists_splits h
        exact hnone p (by rw [hsplit.recipients_eq]; simp) hsplit.recipient_eq
      rw [LogicalSend.onProgress_of_forall_ne hnone, if_neg hx]
      exact h

theorem answer_sendCalls (hr : call.recipient? = some r) (h : s.progress r = .ok p) :
    (sendCalls s call).2 = (call.method s.id.revision p).2.map
      fun _ => some (call.method s.id.revision p).1 := by
  obtain ⟨pre, post, hsplit⟩ := LogicalSend.exists_splits h
  rw [sendCalls_of_recipient hr, hsplit.onProgress_eq]
  cases hm : (call.method s.id.revision p).2 <;> simp [Except.map]

theorem progress_sendCalls_of_ne (hr : call.recipient? = some r) (hx : x ≠ r) :
    (sendCalls s call).1.progress x = s.progress x := by
  rw [sendCalls_of_recipient hr]
  rcases s.splits_or r with ⟨pre, y, post, hsplit⟩ | hnone
  · rw [hsplit.onProgress_eq]
    refine (hsplit.progress_replace ?_ x).trans (if_neg hx)
    rw [SendCall.recipient_method]
    exact hsplit.recipient_eq
  · rw [LogicalSend.onProgress_of_forall_ne hnone]
    rfl

theorem progress_of_answer (hr : call.recipient? = some r)
    (h : (sendCalls s call).2 = .ok (some q)) : (sendCalls s call).1.progress r = .ok q := by
  have hconcerns : call.Concerns r := fun r' hr' => Option.some.inj (hr'.symm.trans hr)
  cases hp : s.progress r with
  | error e =>
    rcases s.splits_or r with ⟨pre, y, post, hsplit⟩ | hnone
    · rw [hsplit.progress_eq] at hp
      cases hp
    · rw [sendCalls_of_recipient hr, LogicalSend.onProgress_of_forall_ne hnone] at h
      cases h
  | ok p =>
    rw [answer_sendCalls hr hp] at h
    rw [progress_sendCalls hp, if_pos hconcerns]
    cases hm : (call.method s.id.revision p).2 with
    | error e =>
      rw [hm] at h
      cases h
    | ok u =>
      rw [hm] at h
      rw [Option.some.inj (Except.ok.inj h)]

/-- A call keeps the recipients sound, and changes nothing when it refuses. -/
theorem sound_sendCalls (h : s.Sound) (call : SendCall) :
    (sendCalls s call).1.Sound ∧
      ∀ e, (sendCalls s call).2 = .error e → (sendCalls s call).1 = s := by
  cases hr : call.recipient? with
  | none =>
    rw [sendCalls_of_none hr]
    refine ⟨fun q hq => ?_, fun _ he => by cases he⟩
    obtain ⟨p, hp, rfl⟩ := List.mem_map.mp hq
    exact (call.proper_method _ (h p hp)).sound
  | some r =>
    rw [sendCalls_of_recipient hr]
    rcases s.splits_or r with ⟨pre, p, post, hsplit⟩ | hnone
    · have hp : p ∈ s.recipients := by rw [hsplit.recipients_eq]; simp
      have hproper := call.proper_method s.id.revision (h p hp)
      rw [hsplit.onProgress_eq]
      constructor
      · intro q hq
        rcases List.mem_append.mp hq with hq | hq
        · exact h q (by rw [hsplit.recipients_eq]; exact List.mem_append_left _ hq)
        · rcases List.mem_cons.mp hq with rfl | hq
          · exact hproper.sound
          · refine h q ?_
            rw [hsplit.recipients_eq]
            exact List.mem_append_right _ (List.mem_cons_of_mem _ hq)
      · intro e he
        cases hm : (call.method s.id.revision p).2 with
        | ok u =>
          rw [hm] at he
          cases he
        | error e' =>
          simp only [Prod.map_fst, id_eq, hproper.refused e' hm, ← hsplit.recipients_eq]
    · rw [LogicalSend.onProgress_of_forall_ne hnone]
      exact ⟨h, fun _ _ => rfl⟩

end Step

/-! ### Runs -/

/-- The recipients that the successful reservations for a member answered with, in order. -/
def reservations (x : Member) (log : List (SendCall × Except Error (Option RecipientProgress))) :
    List RecipientProgress :=
  log.filterMap fun entry =>
    match entry with
    | (.reserveHandoff r, .ok (some p)) => if r = x then some p else none
    | _ => none

theorem reservations_cons (x : Member) (entry : SendCall × Except Error (Option RecipientProgress))
    (log : List (SendCall × Except Error (Option RecipientProgress))) :
    reservations x (entry :: log) = reservations x [entry] ++ reservations x log :=
  List.filterMap_append (l := [entry])

section Run

variable {s : LogicalSend} {x : Member} {p : RecipientProgress}

/-- The answers of reservations that start after a number of attempts: each counts one more, and
the third attempt exhausts the recipient. -/
def Counts : Nat → List RecipientProgress → Prop
  | _, [] => True
  | n, r :: rs => r.attemptsReserved.toNat = n + 1 ∧
      (r.attemptsReserved = 3 → r.disposition = .exhaustedUnknown) ∧ Counts (n + 1) rs

/-- A call that is no reservation for the member leaves its attempts, and reserves none for it. -/
private theorem reservations_eq_nil {call : SendCall}
    {answer : Except Error (Option RecipientProgress)}
    (h : call ≠ .reserveHandoff x ∨ ∃ e, answer = .error e) :
    reservations x [(call, answer)] = [] := by
  rw [reservations, List.filterMap_cons, List.filterMap_nil]
  rcases h with h | ⟨e, rfl⟩
  · cases call with
    | reserveHandoff r =>
      have hr : r ≠ x := fun hr => h (by rw [hr])
      cases answer with
      | error e => rfl
      | ok o => cases o <;> simp [hr]
    | _ => rfl
  · cases call <;> rfl

theorem progress_step (hs : s.Sound) (h : s.progress x = .ok p) (call : SendCall) :
    ∃ q, (sendCalls s call).1.progress x = .ok q ∧ p.Later q ∧
      (reservations x [(call, (sendCalls s call).2)] = [] ∧
          q.attemptsReserved.toNat = p.attemptsReserved.toNat ∨
        reservations x [(call, (sendCalls s call).2)] = [q] ∧
          Counts p.attemptsReserved.toNat [q]) := by
  have hsound := hs.progress h
  have hproper := call.proper_method s.id.revision hsound
  refine ⟨_, progress_sendCalls h, ?_⟩
  by_cases hconcerns : call.Concerns x
  · rw [if_pos hconcerns]
    refine ⟨hproper.later, ?_⟩
    cases hm : (call.method s.id.revision p).2 with
    | error e =>
      -- a call that refuses names the recipient, so the refusal is its answer
      refine .inl ⟨?_, by rw [hproper.refused e hm]⟩
      cases hr : call.recipient? with
      | none =>
        cases call <;> cases hr
        cases hm
      | some r =>
        obtain rfl := hconcerns r hr
        refine reservations_eq_nil (.inr ⟨e, ?_⟩)
        rw [answer_sendCalls hr h, hm]
        rfl
    | ok u =>
      have hattempts := hproper.attempts hm
      by_cases hcall : call = .reserveHandoff x
      · subst hcall
        right
        have hrecipient : (SendCall.reserveHandoff x).recipient? = some x := rfl
        have hanswer := answer_sendCalls hrecipient h
        rw [hm] at hanswer
        have hle : p.attemptsReserved.toNat ≤ 3 := UInt8.le_iff_toNat_le.mp hsound.attempts_le
        refine ⟨?_, ?_, ?_, trivial⟩
        · rw [hanswer]
          simp [reservations, Except.map]
        · rw [hattempts, UInt8.toNat_add]
          change (p.attemptsReserved.toNat + 1) % 256 = _
          omega
        · intro h3
          have hq : p.reserveHandoff = ((SendCall.reserveHandoff x).method s.id.revision p |>.1,
            .ok ()) := Prod.ext rfl hm
          obtain ⟨-, -, heq⟩ := RecipientProgress.reserveHandoff_eq_ok hq
          have h3' : p.attemptsReserved + 1 = 3 := hattempts.symm.trans h3
          rw [heq]
          simp only [h3', decide_true]
          rfl
      · refine .inl ⟨reservations_eq_nil (.inl hcall), ?_⟩
        have hzero : call.reserved = 0 := by
          cases call with
          | reserveHandoff r => exact absurd (congrArg _ (hconcerns r rfl)) hcall
          | _ => rfl
        rw [hattempts, hzero, UInt8.add_zero]
  · rw [if_neg hconcerns]
    refine ⟨.refl p, .inl ⟨reservations_eq_nil (.inl ?_), rfl⟩⟩
    rintro rfl
    exact hconcerns fun r hr => (Option.some.inj hr).symm

theorem sound_run (hs : s.Sound) (calls : List SendCall) : (sendCalls.run s calls).Sound :=
  Machine.run_preserves LogicalSend.Sound (fun _ call h => (sound_sendCalls h call).1) hs calls

theorem progress_run (hs : s.Sound) (h : s.progress x = .ok p) (calls : List SendCall) :
    ∃ q, (sendCalls.run s calls).progress x = .ok q ∧ p.Later q ∧
      (∀ r ∈ reservations x (sendCalls.log s calls), p.Later r) ∧
      Counts p.attemptsReserved.toNat (reservations x (sendCalls.log s calls)) ∧
      q.attemptsReserved.toNat =
        p.attemptsReserved.toNat + (reservations x (sendCalls.log s calls)).length := by
  induction calls generalizing s p with
  | nil => exact ⟨p, h, .refl p, fun _ hr => absurd hr List.not_mem_nil, trivial, rfl⟩
  | cons call calls ih =>
    obtain ⟨p₁, hp₁, hlater₁, hcases⟩ := progress_step hs h call
    obtain ⟨q, hq, hlater, hall, hcounts, hlength⟩ := ih (sound_sendCalls hs call).1 hp₁
    refine ⟨q, hq, hlater₁.trans hlater, ?_⟩
    rw [Machine.log_cons, reservations_cons]
    rcases hcases with ⟨hnil, hsame⟩ | ⟨hone, hcount⟩
    · rw [hnil, List.nil_append, ← hsame]
      exact ⟨fun r hr => hlater₁.trans (hall r hr), hcounts, hlength⟩
    · rw [hone, List.singleton_append, List.length_cons]
      rw [hcount.1] at hcounts hlength
      refine ⟨?_, ⟨hcount.1, hcount.2.1, hcounts⟩, by omega⟩
      intro r hr
      rcases List.mem_cons.mp hr with rfl | hr
      · exact hlater₁
      · exact hlater₁.trans (hall r hr)

theorem counts_getElem? {n i : Nat} {rs : List RecipientProgress} (h : Counts n rs)
    {r : RecipientProgress} (hr : rs[i]? = some r) :
    r.attemptsReserved.toNat = n + i + 1 ∧
      (r.attemptsReserved = 3 → r.disposition = .exhaustedUnknown) := by
  induction rs generalizing n i with
  | nil => cases hr
  | cons y rs ih =>
    cases i with
    | zero =>
      obtain rfl := Option.some.inj hr
      exact ⟨h.1, h.2.1⟩
    | succ i =>
      obtain ⟨hattempts, hlast⟩ := ih h.2.2 hr
      exact ⟨by omega, hlast⟩

end Run

/-! ### New sends -/

theorem LogicalSend.Fresh.sound {s : LogicalSend} (h : s.Fresh) : s.Sound := by
  intro p hp
  rw [h] at hp
  obtain ⟨m, -, rfl⟩ := List.mem_map.mp hp
  exact ⟨rfl, rfl, rfl⟩

/-- A recipient of a new send is pending. -/
theorem LogicalSend.Fresh.progress {s : LogicalSend} (h : s.Fresh) {x : Member}
    (hx : x ∈ s.members) : s.progress x = .ok (.fresh x) := by
  rcases s.splits_or x with ⟨pre, p, post, hsplit⟩ | hnone
  · have hp : p ∈ s.recipients := by rw [hsplit.recipients_eq]; simp
    rw [h] at hp
    obtain ⟨m, -, rfl⟩ := List.mem_map.mp hp
    obtain rfl : m = x := hsplit.recipient_eq
    exact hsplit.progress_eq
  · obtain ⟨p, hp, rfl⟩ := List.mem_map.mp hx
    exact absurd rfl (hnone p hp)

theorem LogicalSend.members_of_new {roster : Roster} {digest : Digest} {sender : Member}
    {sequence : UInt64} {recipients : List Member} {payload : Bytes} {s : LogicalSend}
    (h : LogicalSend.new roster digest sender sequence recipients payload = .ok s) :
    s.members = recipients := by
  simp only [LogicalSend.new, bind_eq_ok] at h
  obtain ⟨_, -, _, -, _, -, _, -, _, -, _, -, id, -, h⟩ := h
  cases h
  rw [LogicalSend.members, List.map_map]
  exact List.map_id' recipients

/-- **The progress of a send.** Over every run of calls of a new send, from any moment to any later
one. -/
theorem recipient_progress {roster : Roster} {digest : Digest} {sender : Member}
    {sequence : UInt64} {recipients : List Member} {payload : Bytes} {send : LogicalSend}
    (hnew : LogicalSend.new roster digest sender sequence recipients payload = .ok send)
    (earlier later : List SendCall) :
    (∀ x ∈ recipients, ∃ p q,
      (sendCalls.run send earlier).progress x = .ok p ∧
      (sendCalls.run send (earlier ++ later)).progress x = .ok q ∧
      -- the stored bytes never change, and every reservation hands them out
      (∀ c, p.contextCommitment = some c → q.contextCommitment = some c ∧
        ∀ r ∈ reservations x (sendCalls.log (sendCalls.run send earlier) later),
          r.contextCommitment = some c) ∧
      (∀ c, p.ciphertext = some c → q.ciphertext = some c ∧
        ∀ r ∈ reservations x (sendCalls.log (sendCalls.run send earlier) later),
          r.ciphertext = some c) ∧
      -- finished recipients
      (p.disposition = .relayAccepted ∨ p.disposition = .cancelled ∨
        p.disposition = .cancelledAfterHandoff → q = p) ∧
      (p.disposition = .exhaustedUnknown →
        q = p ∨ q = { p with disposition := .relayAccepted }) ∧
      -- attempts
      (reservations x (sendCalls.log send (earlier ++ later))).length ≤ 3 ∧
      (∀ third, (reservations x (sendCalls.log send (earlier ++ later)))[2]? = some third →
        third.disposition = .exhaustedUnknown ∧ third.attemptsReserved = 3) ∧
      (q.disposition = .exhaustedUnknown → q.attemptsReserved = 3) ∧
      (q.disposition = .cancelled → q.attemptsReserved = 0) ∧
      (q.disposition = .cancelledAfterHandoff →
        q.attemptsReserved = 1 ∨ q.attemptsReserved = 2)) ∧
    (∀ call,
      -- a refusal changes nothing, a success answers with the recipient as it is afterwards
      (∀ e, (sendCalls (sendCalls.run send earlier) call).2 = .error e →
        (sendCalls (sendCalls.run send earlier) call).1 = sendCalls.run send earlier) ∧
      (∀ x, call.recipient? = some x →
        (∀ r, (sendCalls (sendCalls.run send earlier) call).2 = .ok (some r) →
          (sendCalls (sendCalls.run send earlier) call).1.progress x = .ok r) ∧
        ∀ y, y ≠ x → (sendCalls (sendCalls.run send earlier) call).1.progress y =
          (sendCalls.run send earlier).progress y)) := by
  have hfresh := LogicalSend.fresh_of_new hnew
  have hsound := sound_run hfresh.sound earlier
  constructor
  · intro x hx
    rw [← LogicalSend.members_of_new hnew] at hx
    obtain ⟨p, hp, -⟩ := progress_run hfresh.sound (hfresh.progress hx) earlier
    obtain ⟨q, hq, hlater, hreserved, -, -⟩ := progress_run hsound hp later
    obtain ⟨q', hq', -, -, hcounts, hlength⟩ :=
      progress_run hfresh.sound (hfresh.progress hx) (earlier ++ later)
    rw [← Machine.run_append] at hq
    obtain rfl : q = q' := Except.ok.inj (hq.symm.trans hq')
    have hq_sound := (sound_run hfresh.sound (earlier ++ later)).progress hq
    refine ⟨p, q, hp, hq, fun c hc => ⟨hlater.commitment_kept c hc, fun r hr => ?_⟩,
      fun c hc => ⟨hlater.ciphertext_kept c hc, fun r hr => ?_⟩, hlater.settled_kept,
      hlater.exhausted_kept, ?_, fun third hthird => ?_, fun hd => ?_, fun hd => ?_, fun hd => ?_⟩
    · exact (hreserved r hr).commitment_kept c hc
    · exact (hreserved r hr).ciphertext_kept c hc
    · have hle : q.attemptsReserved.toNat ≤ 3 := UInt8.le_iff_toNat_le.mp hq_sound.attempts_le
      omega
    · obtain ⟨hattempts, hlast⟩ := counts_getElem? hcounts hthird
      have h3 : third.attemptsReserved = 3 := UInt8.toNat_inj.mp hattempts
      exact ⟨hlast h3, h3⟩
    all_goals simp only [RecipientProgress.Sound, hd] at hq_sound
    · exact hq_sound.2
    · exact hq_sound
    · exact hq_sound.2
  · exact fun call => ⟨(sound_sendCalls hsound call).2,
      fun x hx => ⟨fun r => progress_of_answer hx, fun y => progress_sendCalls_of_ne hx⟩⟩

/-- The send of one byte to the second of two members. -/
def pairSend : LogicalSend where
  id := ⟨Sample.group, 1, Sample.alice, 0⟩
  rosterDigest := .replicate digestLen 3
  payload := [7]
  recipients := [.fresh Sample.bob]

/-- Its ciphertext is prepared and handed off three times. -/
def exhaustingCalls : List SendCall :=
  [.recordPrepared Sample.bob (.replicate digestLen 4) [8], .reserveHandoff Sample.bob,
    .reserveHandoff Sample.bob, .reserveHandoff Sample.bob]

theorem recipient_progress_pair :
    (reservations Sample.bob (sendCalls.log pairSend exhaustingCalls)).length = 3 ∧
      ∀ third, (reservations Sample.bob (sendCalls.log pairSend exhaustingCalls))[2]? = some third →
        third.disposition = .exhaustedUnknown ∧ third.attemptsReserved = 3 := by
  have hnew : LogicalSend.new (Sample.successor 1 (.replicate digestLen 0)
      [Sample.alice, Sample.bob]) (.replicate digestLen 3) Sample.alice 0 [Sample.bob] [7] =
        .ok pairSend := by decide +kernel
  obtain ⟨p, q, -, -, -, -, -, -, -, hthird, -⟩ :=
    (recipient_progress hnew [] exhaustingCalls).1 Sample.bob List.mem_cons_self
  exact ⟨by decide +kernel, hthird⟩

end Tacenta.Group
