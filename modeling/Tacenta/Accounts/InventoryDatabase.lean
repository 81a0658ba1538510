import Mathlib.Data.List.AList
import Tacenta.Accounts.InventoryTx
import Tacenta.Library.Execution

/-!
# Interleaved inventory mutations

A database with any number of open transactions, each of them one mutation. Their statements
interleave: each reads what is committed when it runs. The lock on an account makes a transaction
wait for another that holds it, or is no lock at all, and the write of an inventory waits for
another transaction that has written it and then compares with what is committed. Both guards keep
mutations from starting at the same inventory, and the second is enough for that. A transaction that
commits without a write answers with what a committed one returned for the same request.

## Main definitions

* `Database`, `step`: the database and the events of its transactions.
* `Fits`, `Consistent`: what holds of open transactions.
* `Chained`: each committed change is the transition of the one before it.
* `Answered`: a commit is such a change, or repeats what one returned.

## Main results

* `step_consistent`, `step_acknowledged`: what an event preserves.
* `mutations_chained`: the committed changes of an account form a chain, and no commit is lost.
-/

open ByteString Result

namespace Tacenta.Accounts

variable {A κ ε : Type} [DecidableEq A]

/-! ### Databases -/

/-- An open transaction: what it was opened for, the statements that are left, and what it did. -/
structure Transaction (A κ ε : Type) where
  account : A
  key : IdempotencyKey
  request : Request
  rest : Program Statement (fun i => Except ε i.Answer) (Except (MutationError κ ε) DeviceInventory)
  progress : Progress

/-- A database: the committed inventories and mutations, and the open transactions. -/
structure Database (A κ ε : Type) where
  states : A → Option Bytes
  mutations : A → IdempotencyKey → Option PriorMutation
  opened : AList fun _ : Nat => Transaction A κ ε

/-- Nothing is committed and no transaction is open. -/
def Database.empty : Database A κ ε := ⟨fun _ => none, fun _ _ => none, ∅⟩

/-- Another open transaction of the account did this. -/
def Database.another (db : Database A κ ε) (tid : Nat) (account : A) (did : Progress → Bool) :
    Bool :=
  db.opened.entries.any fun entry =>
    entry.1 ≠ tid ∧ entry.2.account = account ∧ did entry.2.progress

/-- Run a statement of a transaction, unless it has to wait. The account is known or it is not. -/
def Database.execute (serialize : Bool) (handle : A → String) (db : Database A κ ε) (tid : Nat)
    (account : A) (known : Bool) (s : Progress) : (i : Statement) → Option (i.Answer × Progress)
  | .lockAccount =>
    if known = false then some (none, s)
    else if serialize ∧ db.another tid account Progress.locked then none
    else some (some (handle account), { s with locked := true })
  | .priorMutation key =>
    match db.mutations account key with
    | some prior => some (some prior, { s with found := some (key, prior) })
    | none => some (none, { s with unrecorded := if s.locked then some key else s.unrecorded })
  | .storedState => some (db.states account, s)
  | .compareAndSetState expected next =>
    if db.another tid account (·.staged.isSome) then none
    else if db.states account = expected then
      some (true, { s with staged := some next, basis := expected })
    else some (false, s)
  | .recordMutation key request result =>
    some ((), { s with record := some (key, ⟨request, result⟩) })

/-- What can happen: a transaction is opened, runs its next statement, sees it fail, commits, or is
dropped. -/
inductive Event (A ε : Type) where
  | start (tid : Nat) (account : A) (key : IdempotencyKey) (request : Request)
  | advance (tid : Nat) (known : Bool)
  | fail (tid : Nat) (error : ε)
  | commit (tid : Nat)
  | drop (tid : Nat)

/-- A commit: what the transaction was opened for, what its mutation returned, and the inventory
that was replaced by it, if any. -/
structure Commit (A : Type) where
  tid : Nat
  account : A
  key : IdempotencyKey
  request : Request
  result : DeviceInventory
  wrote : Option Bytes

variable (C : CoreRules κ)

/-- A transaction that did nothing yet. -/
def Transaction.start (account : A) (key : IdempotencyKey) (request : Request) :
    Transaction A κ ε where
  account := account
  key := key
  request := request
  rest := (applyMutation C key request.encode fun handle current =>
    request.transition C.toLifecycleRules handle current).run
  progress := .none

/-- Go on with the answer to the next statement. -/
def Transaction.answered (tx : Transaction A κ ε)
    (rest : Program Statement (fun i => Except ε i.Answer)
      (Except (MutationError κ ε) DeviceInventory)) (progress : Progress) : Transaction A κ ε :=
  { tx with rest, progress }

/-- Make durable what a transaction staged. -/
def Database.apply (db : Database A κ ε) (tid : Nat) (tx : Transaction A κ ε) : Database A κ ε where
  states := match tx.progress.staged with
    | some next => Function.update db.states tx.account (some next)
    | none => db.states
  mutations := match tx.progress.record with
    | some (key, mutation) => Function.update db.mutations tx.account
        (Function.update (db.mutations tx.account) key (some mutation))
    | none => db.mutations
  opened := db.opened.erase tid

/-- One event, with the commit that it made. A transaction commits only after its mutation
succeeded. -/
def step (serialize : Bool) (handle : A → String) :
    Machine (Database A κ ε) (Event A ε) (Option (Commit A))
  | db, .start tid account key request =>
    if tid ∈ db.opened then (db, none)
    else ({ db with opened := db.opened.insert tid (.start C account key request) }, none)
  | db, .advance tid known =>
    match db.opened.lookup tid with
    | none => (db, none)
    | some tx =>
      match tx.rest with
      | .done _ => (db, none)
      | .call i next =>
        match db.execute serialize handle tid tx.account known tx.progress i with
        | none => (db, none)
        | some (answer, progress) =>
          ({ db with opened := db.opened.insert tid (tx.answered (next (.ok answer)) progress) },
            none)
  | db, .fail tid error =>
    match db.opened.lookup tid with
    | none => (db, none)
    | some tx =>
      match tx.rest with
      | .done _ => (db, none)
      | .call _ next =>
        ({ db with opened := db.opened.insert tid (tx.answered (next (.error error)) tx.progress) },
          none)
  | db, .commit tid =>
    match db.opened.lookup tid with
    | none => (db, none)
    | some tx =>
      match tx.rest with
      | .call _ _ => (db, none)
      | .done (.error _) => (db, none)
      | .done (.ok result) =>
        (db.apply tid tx,
          some ⟨tid, tx.account, tx.key, tx.request, result, tx.progress.staged⟩)
  | db, .drop tid => ({ db with opened := db.opened.erase tid }, none)

/-! ### What an event does -/

variable {serialize : Bool} {handle : A → String} {db : Database A κ ε}

variable {did : Progress → Bool} {tx : Transaction A κ ε} {tid' : Nat}
  {result current : DeviceInventory} {cs : List (Commit A)}

theorem Database.another_eq_false {tid : Nat} {account : A} :
    db.another tid account did = false ↔ ∀ tid' tx', db.opened.lookup tid' = some tx' →
      tid' ≠ tid → tx'.account = account → did tx'.progress = false := by
  rw [Database.another, List.any_eq_false]
  constructor
  · intro h tid' tx' hlookup hne haccount
    have := h ⟨tid', tx'⟩ (AList.mem_lookup_iff.mp hlookup)
    simpa [hne, haccount] using this
  · rintro h ⟨tid', tx'⟩ hmem
    have := h tid' tx' (AList.mem_lookup_iff.mpr hmem)
    simpa using this

theorem Database.execute_answers {tid : Nat} {account : A} {known : Bool} {s s' : Progress}
    {i : Statement} {answer : i.Answer}
    (h : db.execute serialize handle tid account known s i = some (answer, s')) :
    Answers (handle account) i s (.ok answer : Except ε i.Answer) s' := by
  cases i with
  | lockAccount =>
    simp only [execute] at h
    split at h
    · cases h
      exact .unknown
    split at h
    · cases h
    · cases h
      exact .locked
  | priorMutation key =>
    simp only [execute] at h
    split at h
    · cases h
      exact .recorded
    · cases h
      exact .unrecorded
  | storedState =>
    cases h
    exact .stored
  | compareAndSetState expected next =>
    simp only [execute] at h
    split at h
    · cases h
    split at h
    · cases h
      exact .replaced
    · cases h
      exact .kept
  | recordMutation key request result =>
    cases h
    exact .record

/-- What a transaction has found is what it found before, or is committed. -/
theorem Database.execute_found {tid : Nat} {account : A} {known : Bool} {s s' : Progress}
    {i : Statement} {answer : i.Answer} {key : IdempotencyKey} {prior : PriorMutation}
    (h : db.execute serialize handle tid account known s i = some (answer, s'))
    (hfound : s'.found = some (key, prior)) :
    s.found = some (key, prior) ∨ db.mutations account key = some prior := by
  cases i with
  | lockAccount =>
    simp only [execute] at h
    split at h
    · cases h
      exact .inl hfound
    split at h
    · cases h
    · cases h
      exact .inl hfound
  | priorMutation key' =>
    simp only [execute] at h
    split at h
    · next hprior =>
      cases h
      cases hfound
      exact .inr hprior
    · cases h
      exact .inl hfound
  | storedState | recordMutation =>
    cases h
    exact .inl hfound
  | compareAndSetState expected next =>
    simp only [execute] at h
    split at h
    · cases h
    split at h <;>
      · cases h
        exact .inl hfound

/-- The transaction will answer with a completed mutation and stage nothing, or stage the transition
of what it replaces. -/
def Transaction.Guaranteed (handle : A → String) (tx : Transaction A κ ε) : Prop :=
  tx.rest.Meets (Answers (handle tx.account))
    (Outcome C (handle tx.account) tx.key tx.request.encode fun handle current =>
      tx.request.transition C.toLifecycleRules handle current)
    tx.progress

/-- What holds of the progress of an open transaction. What it replaces is what is committed, and no
other open transaction of the account replaces it too. With the lock, only one transaction holds it,
and what was not recorded still is not. -/
structure Fits (serialize : Bool) (db : Database A κ ε) (tid : Nat) (account : A) (s : Progress) :
    Prop where
  basis : s.staged.isSome = true → db.states account = s.basis
  staged_alone : s.staged.isSome = true → db.another tid account (·.staged.isSome) = false
  locked_alone : serialize = true → s.locked = true → db.another tid account Progress.locked = false
  unrecorded : serialize = true → ∀ key, s.unrecorded = some key →
    s.locked = true ∧ db.mutations account key = none

/-- All open transactions keep their guarantee and fit. -/
def Consistent (serialize : Bool) (handle : A → String) (db : Database A κ ε) : Prop :=
  ∀ tid tx, db.opened.lookup tid = some tx →
    tx.Guaranteed C handle ∧ Fits serialize db tid tx.account tx.progress

/-- Everything that an event can do. -/
inductive Stepped (serialize : Bool) (handle : A → String) (db : Database A κ ε) :
    Database A κ ε × Option (Commit A) → Prop where
  | unchanged : Stepped serialize handle db (db, none)
  | started {tid account key request} (hnew : db.opened.lookup tid = none) :
    Stepped serialize handle db
      ({ db with opened := db.opened.insert tid (.start C account key request) }, none)
  | advanced {tid tx i next known answer progress} (hopen : db.opened.lookup tid = some tx)
    (hrest : tx.rest = .call i next)
    (hexec : db.execute serialize handle tid tx.account known tx.progress i =
      some (answer, progress)) :
    Stepped serialize handle db
      ({ db with opened := db.opened.insert tid (tx.answered (next (.ok answer)) progress) }, none)
  | failed {tid tx i next error} (hopen : db.opened.lookup tid = some tx)
    (hrest : tx.rest = .call i next) :
    Stepped serialize handle db
      ({ db with opened := db.opened.insert tid (tx.answered (next (.error error)) tx.progress) },
        none)
  | committed {tid tx result} (hopen : db.opened.lookup tid = some tx)
    (hrest : tx.rest = .done (.ok result)) :
    Stepped serialize handle db
      (db.apply tid tx, some ⟨tid, tx.account, tx.key, tx.request, result, tx.progress.staged⟩)
  | dropped {tid} : Stepped serialize handle db ({ db with opened := db.opened.erase tid }, none)

theorem step_stepped (serialize : Bool) (handle : A → String) (db : Database A κ ε)
    (event : Event A ε) :
    Stepped C serialize handle db (step C serialize handle db event) := by
  cases event with
  | start tid account key request =>
    rw [step]
    split
    · exact .unchanged
    · next hnew => exact .started (AList.lookup_eq_none.mpr hnew)
  | advance tid known =>
    rw [step]
    split
    · exact .unchanged
    next tx hopen =>
    split
    · exact .unchanged
    next i next hrest =>
    split
    · exact .unchanged
    · next answer progress hexec => exact .advanced hopen hrest hexec
  | fail tid error =>
    rw [step]
    split
    · exact .unchanged
    next tx hopen =>
    split
    · exact .unchanged
    · next hrest => exact .failed hopen hrest
  | commit tid =>
    rw [step]
    split
    · exact .unchanged
    next tx hopen =>
    split
    · exact .unchanged
    · exact .unchanged
    · next hrest => exact .committed hopen hrest
  | drop tid => exact .dropped

/-! ### Open transactions -/

theorem Database.another_insert {tid : Nat} {account : A}
    (h : db.another tid' account did = false)
    (hnew : tid ≠ tid' → tx.account = account → did tx.progress = false) :
    { db with opened := db.opened.insert tid tx }.another tid' account did = false := by
  rw [another_eq_false] at h ⊢
  intro tid'' tx'' hlookup hne haccount
  by_cases hid : tid'' = tid
  · subst hid
    rw [AList.lookup_insert, Option.some_inj] at hlookup
    subst hlookup
    exact hnew hne haccount
  · rw [AList.lookup_insert_ne hid] at hlookup
    exact h tid'' tx'' hlookup hne haccount

theorem Database.another_erase {tid : Nat} {states mutations} {account : A}
    (h : db.another tid' account did = false) :
    Database.another ⟨states, mutations, db.opened.erase tid⟩ tid' account did = false := by
  rw [another_eq_false] at h ⊢
  intro tid'' tx'' hlookup hne haccount
  by_cases hid : tid'' = tid
  · subst hid
    rw [AList.lookup_erase] at hlookup
    cases hlookup
  · rw [AList.lookup_erase_ne hid] at hlookup
    exact h tid'' tx'' hlookup hne haccount

theorem Database.not_both {tid : Nat} {tx' : Transaction A κ ε} {account : A}
    (h : db.another tid account did = false) (hopen : db.opened.lookup tid' = some tx')
    (hne : tid' ≠ tid) (haccount : tx'.account = account) :
    did tx'.progress = false :=
  another_eq_false.mp h tid' tx' hopen hne haccount

/-- An open transaction may be replaced by one that fits, or one may be opened. -/
theorem Consistent.insert (hdb : Consistent C serialize handle db) {tid : Nat}
    (hguaranteed : tx.Guaranteed C handle) (hfits : Fits serialize db tid tx.account tx.progress) :
    Consistent C serialize handle { db with opened := db.opened.insert tid tx } := by
  intro tid' tx' hopen
  by_cases hid : tid' = tid
  · subst hid
    rw [AList.lookup_insert, Option.some_inj] at hopen
    subst hopen
    exact ⟨hguaranteed, hfits.basis,
      fun h => Database.another_insert (hfits.staged_alone h) fun hne => absurd rfl hne,
      fun hs h => Database.another_insert (hfits.locked_alone hs h) fun hne => absurd rfl hne,
      hfits.unrecorded⟩
  · rw [AList.lookup_insert_ne hid] at hopen
    obtain ⟨hguaranteed', hfits'⟩ := hdb tid' tx' hopen
    refine ⟨hguaranteed', hfits'.basis, fun h => ?_, fun hs h => ?_, hfits'.unrecorded⟩
    · refine Database.another_insert (hfits'.staged_alone h) fun hne haccount => ?_
      by_contra hstaged
      rw [Bool.not_eq_false] at hstaged
      have := Database.not_both (hfits.staged_alone hstaged) hopen hid haccount.symm
      exact absurd h (by simp [this])
    · refine Database.another_insert (hfits'.locked_alone hs h) fun hne haccount => ?_
      by_contra hlocked
      rw [Bool.not_eq_false] at hlocked
      have := Database.not_both (hfits.locked_alone hs hlocked) hopen hid haccount.symm
      exact absurd h (by simp [this])

theorem fits_none (tid : Nat) (account : A) : Fits serialize db tid account .none := by
  constructor <;> intros <;> contradiction

theorem Fits.execute {tid : Nat} {account : A} {known : Bool} {s s' : Progress} {i : Statement}
    {answer : i.Answer} (hfits : Fits serialize db tid account s)
    (h : db.execute serialize handle tid account known s i = some (answer, s')) :
    Fits serialize db tid account s' := by
  cases i with
  | lockAccount =>
    simp only [Database.execute] at h
    split at h
    · cases h
      exact hfits
    split at h
    · cases h
    · next hfree =>
      cases h
      refine ⟨hfits.basis, hfits.staged_alone, fun hs _ => ?_, fun hs key hkey => ?_⟩
      · simpa [hs] using hfree
      · exact ⟨rfl, (hfits.unrecorded hs key hkey).2⟩
  | priorMutation key =>
    simp only [Database.execute] at h
    split at h
    · cases h
      exact ⟨hfits.basis, hfits.staged_alone, hfits.locked_alone, hfits.unrecorded⟩
    · next hnone =>
      cases h
      refine ⟨hfits.basis, hfits.staged_alone, hfits.locked_alone, fun hs key' hkey => ?_⟩
      simp only at hkey
      split at hkey
      · next hlocked =>
        cases hkey
        exact ⟨hlocked, hnone⟩
      · exact hfits.unrecorded hs key' hkey
  | storedState =>
    cases h
    exact hfits
  | compareAndSetState expected next =>
    simp only [Database.execute] at h
    split at h
    · cases h
    next hfree =>
    split at h
    · next hcurrent =>
      cases h
      exact ⟨fun _ => hcurrent, fun _ => by simpa using hfree, hfits.locked_alone, hfits.unrecorded⟩
    · cases h
      exact hfits
  | recordMutation key request result =>
    cases h
    exact ⟨hfits.basis, hfits.staged_alone, hfits.locked_alone, hfits.unrecorded⟩

omit [DecidableEq A] in
/-- What a transaction makes durable, once its mutation succeeded. -/
theorem Transaction.Guaranteed.outcome (h : tx.Guaranteed C handle)
    (hrest : tx.rest = .done (.ok result)) :
    Outcome C (handle tx.account) tx.key tx.request.encode
      (fun handle current => tx.request.transition C.toLifecycleRules handle current)
      (.ok result : Except (MutationError κ ε) DeviceInventory) tx.progress := by
  rw [Transaction.Guaranteed, hrest] at h
  exact h

theorem Consistent.apply (hdb : Consistent C serialize handle db) {tid : Nat}
    (hopen : db.opened.lookup tid = some tx) (hrest : tx.rest = .done (.ok result)) :
    Consistent C serialize handle (db.apply tid tx) := by
  obtain ⟨hguaranteed, hfits⟩ := hdb tid tx hopen
  have houtcome := hguaranteed.outcome C hrest result rfl
  intro tid' tx' hopen'
  have hid : tid' ≠ tid := by
    rintro rfl
    rw [Database.apply, AList.lookup_erase] at hopen'
    cases hopen'
  rw [Database.apply, AList.lookup_erase_ne hid] at hopen'
  obtain ⟨hguaranteed', hfits'⟩ := hdb tid' tx' hopen'
  refine ⟨hguaranteed', fun h => ?_, fun h => ?_, fun hs h => ?_, fun hs key hkey => ?_⟩
  · -- the account of a transaction that replaces its inventory is another one
    rw [← hfits'.basis h, Database.apply]
    split
    · next next hstaged =>
      refine Function.update_of_ne (fun haccount => ?_) _ _
      have := Database.not_both (hfits.staged_alone (by rw [hstaged]; rfl)) hopen' hid haccount
      exact absurd h (by simp [this])
    · rfl
  · exact Database.another_erase (hfits'.staged_alone h)
  · exact Database.another_erase (hfits'.locked_alone hs h)
  · obtain ⟨hlocked', hnone⟩ := hfits'.unrecorded hs key hkey
    refine ⟨hlocked', ?_⟩
    rw [← hnone, Database.apply]
    rcases houtcome with ⟨-, hrecord, -⟩ | ⟨⟨hlocked, -, hrecord⟩, -⟩
    · simp only [hrecord]
    · -- the account of a transaction that holds the lock is another one
      have haccount : tx'.account ≠ tx.account := by
        intro haccount
        have := Database.not_both (hfits.locked_alone hs hlocked) hopen' hid haccount
        exact absurd hlocked' (by simp [this])
      simp only [hrecord]
      rw [Function.update_of_ne haccount]

theorem Consistent.erase (hdb : Consistent C serialize handle db) (tid : Nat) :
    Consistent C serialize handle { db with opened := db.opened.erase tid } := by
  intro tid' tx' hopen
  by_cases hid : tid' = tid
  · rw [hid, AList.lookup_erase] at hopen
    cases hopen
  · rw [AList.lookup_erase_ne hid] at hopen
    obtain ⟨hguaranteed, hfits⟩ := hdb tid' tx' hopen
    exact ⟨hguaranteed, hfits.basis, fun h => Database.another_erase (hfits.staged_alone h),
      fun hs h => Database.another_erase (hfits.locked_alone hs h), hfits.unrecorded⟩

/-- An event keeps the open transactions consistent. -/
theorem step_consistent (hdb : Consistent C serialize handle db) (event : Event A ε) :
    Consistent C serialize handle (step C serialize handle db event).1 := by
  generalize hstep : step C serialize handle db event = next
  have h := hstep ▸ step_stepped C serialize handle db event
  cases h with
  | unchanged => exact hdb
  | started hnew => exact hdb.insert C (applyMutation_meets C _ _ _ _) (fits_none _ _)
  | advanced hopen hrest hexec =>
    obtain ⟨hguaranteed, hfits⟩ := hdb _ _ hopen
    rw [Transaction.Guaranteed, hrest] at hguaranteed
    exact hdb.insert C (hguaranteed.step (Database.execute_answers hexec)) (hfits.execute hexec)
  | failed hopen hrest =>
    obtain ⟨hguaranteed, hfits⟩ := hdb _ _ hopen
    rw [Transaction.Guaranteed, hrest] at hguaranteed
    exact hdb.insert C (hguaranteed.step .failed) hfits
  | committed hopen hrest => exact hdb.apply C hopen hrest
  | dropped => exact hdb.erase C _

/-! ### The committed changes of an account -/

/-- The commits of the account. -/
def commits (account : A) (past : List (Event A ε × Option (Commit A))) : List (Commit A) :=
  (past.filterMap Prod.snd).filter fun c => c.account = account

/-- The commits that changed an inventory. -/
def changes (cs : List (Commit A)) : List (Commit A) := cs.filter fun c => c.wrote.isSome

/-- Each commit changed the inventory, or returned what an earlier change under the same key
returned for the same request. -/
def Answered (cs : List (Commit A)) : Prop :=
  ∀ before c, before ++ [c] <+: cs → c.wrote.isSome = true ∨
    ∃ d ∈ before, d.wrote.isSome = true ∧ d.key = c.key ∧ d.request = c.request ∧
      d.result = c.result

/-- Each change is the transition of the one before it, and wrote what its mutation returned. -/
def Chained (handle : String) : DeviceInventory → List (Commit A) → Prop
  | _, [] => True
  | current, c :: cs =>
    (c.request.transition C.toLifecycleRules handle current = .ok c.result ∧
      c.wrote = some (encodeInventory c.result)) ∧ Chained handle c.result cs

/-- The inventory after the changes. -/
def latest (cs : List (Commit A)) : DeviceInventory → DeviceInventory :=
  (cs.getLast?.map Commit.result).getD

variable {C}

omit [DecidableEq A] in
theorem Chained.concat {handle : String} {c : Commit A} (h : Chained C handle current cs)
    (hc : c.request.transition C.toLifecycleRules handle (latest cs current) = .ok c.result)
    (hwrote : c.wrote = some (encodeInventory c.result)) :
    Chained C handle current (cs ++ [c]) := by
  induction cs generalizing current with
  | nil => exact ⟨⟨hc, hwrote⟩, trivial⟩
  | cons d cs ih =>
    refine ⟨h.1, ih h.2 ?_⟩
    cases cs with
    | nil => exact hc
    | cons e cs =>
      rw [latest, List.getLast?_cons_cons] at hc
      exact hc

omit [DecidableEq A] in
theorem Chained.generations {handle : String} (h : Chained C handle current cs) :
    cs.map (·.request.predecessorGeneration.toNat) =
        List.range' current.generation.toNat cs.length ∧
      cs.map (·.result.generation.toNat) =
        List.range' (current.generation.toNat + 1) cs.length := by
  induction cs generalizing current with
  | nil => exact ⟨rfl, rfl⟩
  | cons c cs ih =>
    obtain ⟨⟨hc, -⟩, hcs⟩ := h
    have hadvances := Request.transition_advances hc
    obtain ⟨hpredecessors, hresults⟩ := ih hcs
    simp only [List.map_cons, List.length_cons, List.range'_succ, hpredecessors, hresults,
      hadvances.generation_succ, ← hadvances.generation_eq, and_self]

/-- One of the changes completed the mutation under the key. -/
def Completes (cs : List (Commit A)) (key : IdempotencyKey) (prior : PriorMutation) : Prop :=
  ∃ c ∈ cs, c.key = key ∧ prior = ⟨c.request.encode, encodeInventory c.result⟩

omit [DecidableEq A] in
theorem Completes.append {key : IdempotencyKey} {prior : PriorMutation}
    (h : Completes cs key prior) (more : List (Commit A)) : Completes (cs ++ more) key prior := by
  obtain ⟨c, hc, h⟩ := h
  exact ⟨c, List.mem_append_left more hc, h⟩

/-- What the commits of an account say about what is committed and what was found. -/
structure History (C : CoreRules κ) (serialize : Bool) (handle : String) (db : Database A κ ε)
    (account : A) (cs : List (Commit A)) : Prop where
  chained : Chained C handle .default cs
  state : db.states account = cs.getLast?.map fun c => encodeInventory c.result
  stored : ∀ c ∈ cs, c.result.Stored C
  recorded : ∀ c ∈ cs, (db.mutations account c.key).isSome = true
  completed : ∀ key prior, db.mutations account key = some prior → Completes cs key prior
  found : ∀ tid tx, db.opened.lookup tid = some tx → tx.account = account →
    ∀ key prior, tx.progress.found = some (key, prior) → Completes cs key prior
  nodup : serialize = true → (cs.map Commit.key).Nodup

omit [DecidableEq A] in
theorem History.congr {account : A} {handle : String} {db' : Database A κ ε}
    (h : History C serialize handle db account cs)
    (hstates : db'.states account = db.states account)
    (hmutations : db'.mutations account = db.mutations account)
    (hfound : ∀ tid tx, db'.opened.lookup tid = some tx → tx.account = account →
      ∀ key prior, tx.progress.found = some (key, prior) → Completes cs key prior) :
    History C serialize handle db' account cs :=
  ⟨h.chained, hstates.trans h.state, h.stored, fun c hc => hmutations ▸ h.recorded c hc,
    fun key prior hprior => h.completed key prior (hmutations ▸ hprior), hfound, h.nodup⟩

omit [DecidableEq A] in
/-- A transaction may be opened or go on if what it has found was completed. -/
theorem History.insert {account : A} {handle : String} {tid : Nat}
    (h : History C serialize handle db account cs)
    (htx : tx.account = account → ∀ key prior, tx.progress.found = some (key, prior) →
      Completes cs key prior) :
    History C serialize handle { db with opened := db.opened.insert tid tx } account cs := by
  refine h.congr rfl rfl fun tid' tx' hopen => ?_
  by_cases hid : tid' = tid
  · rw [hid, AList.lookup_insert, Option.some_inj] at hopen
    exact hopen ▸ htx
  · rw [AList.lookup_insert_ne hid] at hopen
    exact h.found tid' tx' hopen

omit [DecidableEq A] in
/-- What the transactions found that are left when one ends. -/
theorem History.found_erase {account : A} {handle : String} {tid : Nat}
    (h : History C serialize handle db account cs) {tid' : Nat} {tx' : Transaction A κ ε}
    (hopen : (db.opened.erase tid).lookup tid' = some tx') (haccount : tx'.account = account)
    {key : IdempotencyKey} {prior : PriorMutation}
    (hfound : tx'.progress.found = some (key, prior)) : Completes cs key prior := by
  by_cases hid : tid' = tid
  · rw [hid, AList.lookup_erase] at hopen
    cases hopen
  · rw [AList.lookup_erase_ne hid] at hopen
    exact h.found tid' tx' hopen haccount key prior hfound

omit [DecidableEq A] in
/-- A commit without a write returned what a change returned for the same request. -/
theorem History.replayed {account : A} {handle' : String} {key : IdempotencyKey} {request : Request}
    {prior : PriorMutation} (h : History C serialize handle' db account cs)
    (hprior : Completes cs key prior)
    (hreplay : replay C handle' request.encode prior = .ok result) :
    ∃ c ∈ cs, c.key = key ∧ c.request = request ∧ c.result = result := by
  obtain ⟨c, hc, hkey, rfl⟩ := hprior
  obtain ⟨hrequest, hreplay⟩ := refuseIf_bind_eq_ok.mp hreplay
  obtain ⟨decoded, hdecoded, hreplay⟩ := bind_eq_ok.mp hreplay
  obtain ⟨-, -, hresult⟩ := bind_eq_ok.mp hreplay
  obtain rfl := pure_eq_ok.mp hresult
  exact ⟨c, hc, hkey, Request.encode_injective (not_not.mp hrequest),
    (eq_of_decodeInventory (h.stored c hc) (orRefuse_eq_ok.mp hdecoded)).symm⟩

omit [DecidableEq A] in
/-- What is read of the committed inventory is the inventory after the changes, which is small
enough to be stored. -/
theorem History.current_eq {account : A} {handle : String}
    (h : History C serialize handle db account cs)
    (hcurrent : currentOf C (db.states account) = .ok current) :
    current = latest cs .default ∧ current.active.length ≤ C.maxActiveBindings ∧
      current.revoked.length ≤ C.maxRecentRevocations := by
  rw [h.state] at hcurrent
  rw [latest]
  cases hlast : cs.getLast? with
  | none =>
    rw [hlast] at hcurrent
    cases hcurrent
    exact ⟨rfl, Nat.zero_le _, Nat.zero_le _⟩
  | some c =>
    rw [hlast] at hcurrent
    rw [Option.map_some, currentOf_some_eq_ok] at hcurrent
    exact ⟨eq_of_decodeInventory (h.stored c (List.mem_of_getLast? hlast)) hcurrent,
      ((decodeInventory_eq_some C).mp hcurrent).1⟩

theorem Database.apply_of_ne (db : Database A κ ε) (tid : Nat) {account : A}
    (h : tx.account ≠ account) : (db.apply tid tx).states account = db.states account ∧
      (db.apply tid tx).mutations account = db.mutations account := by
  constructor
  · cases hstaged : tx.progress.staged with
    | none => simp only [apply, hstaged]
    | some next => simp only [apply, hstaged, Function.update_of_ne h.symm]
  · cases hrecord : tx.progress.record with
    | none => simp only [apply, hrecord]
    | some record => simp only [apply, hrecord, Function.update_of_ne h.symm]

theorem Transaction.Guaranteed.apply_eq (h : tx.Guaranteed C handle) (db : Database A κ ε)
    (tid : Nat) (hrest : tx.rest = .done (.ok result)) (hstaged : tx.progress.staged = none) :
    (db.apply tid tx).states = db.states ∧ (db.apply tid tx).mutations = db.mutations := by
  rcases h.outcome C hrest result rfl with ⟨-, hrecord, -⟩ | ⟨-, hwrote, -⟩
  · simp only [Database.apply, hstaged, hrecord, and_self]
  · rw [hstaged] at hwrote
    cases hwrote

theorem History.apply {tid : Nat} (h : History C serialize (handle tx.account) db tx.account cs)
    (hguaranteed : tx.Guaranteed C handle) (hfits : Fits serialize db tid tx.account tx.progress)
    (hrest : tx.rest = .done (.ok result)) (hstaged : tx.progress.staged.isSome = true) :
    History C serialize (handle tx.account) (db.apply tid tx) tx.account
      (cs ++ [⟨tid, tx.account, tx.key, tx.request, result, tx.progress.staged⟩]) := by
  rcases hguaranteed.outcome C hrest result rfl with
    ⟨hnone, -⟩ | ⟨⟨-, hunrecorded, hrecord⟩, hwrote, current, hcurrent, htransition⟩
  · rw [hnone] at hstaged
    cases hstaged
  rw [← hfits.basis hstaged] at hcurrent
  obtain ⟨hlatest, hsmall⟩ := h.current_eq hcurrent
  refine ⟨h.chained.concat (hlatest ▸ htransition) hwrote, ?_, ?_, ?_, fun key prior hprior => ?_,
    fun _ _ hopen haccount _ _ hfound => (h.found_erase hopen haccount hfound).append _,
    fun hs => ?_⟩
  · simp only [Database.apply, hwrote, Function.update_self, List.getLast?_concat, Option.map_some]
  · intro c hc
    rcases List.mem_append.mp hc with hc | hc
    · exact h.stored c hc
    · rw [List.mem_singleton.mp hc]
      exact (Request.transition_advances htransition).stored hsmall
  · intro c hc
    simp only [Database.apply, hrecord, Function.update_self]
    rcases List.mem_append.mp hc with hc | hc
    · by_cases hkey : c.key = tx.key
      · rw [hkey, Function.update_self]
        rfl
      · rw [Function.update_of_ne hkey]
        exact h.recorded c hc
    · rw [List.mem_singleton.mp hc, Function.update_self]
      rfl
  · simp only [Database.apply, hrecord, Function.update_self] at hprior
    by_cases hkey : key = tx.key
    · rw [hkey, Function.update_self, Option.some_inj] at hprior
      exact ⟨_, List.mem_append_right _ (List.mem_singleton_self _), hkey.symm, hprior.symm⟩
    · rw [Function.update_of_ne hkey] at hprior
      exact (h.completed key prior hprior).append _
  · -- the key of the commit was not recorded, the others are
    rw [List.map_append, List.nodup_append]
    refine ⟨h.nodup hs, List.nodup_singleton _, ?_⟩
    rintro key hkey key' hkey' rfl
    obtain ⟨c, hc, rfl⟩ := List.mem_map.mp hkey
    have hrecorded := h.recorded c hc
    rw [List.mem_singleton.mp hkey', (hfits.unrecorded hs _ hunrecorded).2] at hrecorded
    cases hrecorded

theorem commits_concat_none (account : A) (past : List (Event A ε × Option (Commit A)))
    (event : Event A ε) : commits account (past ++ [(event, none)]) = commits account past := by
  simp [commits]

theorem commits_concat_some (account : A) (past : List (Event A ε × Option (Commit A)))
    (event : Event A ε) (c : Commit A) :
    commits account (past ++ [(event, some c)]) =
      commits account past ++ if c.account = account then [c] else [] := by
  by_cases haccount : c.account = account <;> simp [commits, haccount]

omit [DecidableEq A] in
theorem changes_append (cs more : List (Commit A)) :
    changes (cs ++ more) = changes cs ++ changes more := List.filter_append ..

omit [DecidableEq A] in
theorem Answered.concat {c : Commit A} (h : Answered cs)
    (hc : c.wrote.isSome = true ∨ ∃ d ∈ cs, d.wrote.isSome = true ∧ d.key = c.key ∧
      d.request = c.request ∧ d.result = c.result) : Answered (cs ++ [c]) := by
  intro before c' hbefore
  rcases List.prefix_concat_iff.mp hbefore with heq | hbefore
  · obtain ⟨rfl, hlast⟩ := List.append_inj' heq rfl
    cases hlast
    exact hc
  · exact h before c' hbefore

/-- The commits of the account so far: the history of its changes, and no commit that is neither a
change nor a repeated answer. -/
structure Acknowledged (C : CoreRules κ) (serialize : Bool) (handle : String)
    (db : Database A κ ε) (account : A) (cs : List (Commit A)) : Prop where
  history : History C serialize handle db account (changes cs)
  answered : Answered cs

/-- A commit of the account is a change, or it repeats the answer of one. -/
theorem Acknowledged.apply {tid : Nat}
    (h : Acknowledged C serialize (handle tx.account) db tx.account cs)
    (hopen : db.opened.lookup tid = some tx) (hguaranteed : tx.Guaranteed C handle)
    (hfits : Fits serialize db tid tx.account tx.progress)
    (hrest : tx.rest = .done (.ok result)) :
    Acknowledged C serialize (handle tx.account) (db.apply tid tx) tx.account
      (cs ++ [⟨tid, tx.account, tx.key, tx.request, result, tx.progress.staged⟩]) := by
  cases hstaged : tx.progress.staged with
  | some bytes =>
    have hhistory := h.history.apply hguaranteed hfits hrest (by rw [hstaged]; rfl)
    rw [hstaged] at hhistory
    exact ⟨(changes_append _ _).symm ▸ hhistory, h.answered.concat (.inl rfl)⟩
  | none =>
    obtain ⟨hstates, hmutations⟩ := hguaranteed.apply_eq db tid hrest hstaged
    refine ⟨?_, h.answered.concat (.inr ?_)⟩
    · rw [changes_append]
      refine List.append_nil _ ▸ h.history.congr (congrFun hstates _) (congrFun hmutations _) ?_
      exact fun _ _ hopen' haccount _ _ => h.history.found_erase hopen' haccount
    · rcases hguaranteed.outcome C hrest result rfl with ⟨-, -, prior, hfound, hreplay⟩ | ⟨-, h', -⟩
      · obtain ⟨d, hd, hkey, hrequest, hresult⟩ := h.history.replayed
          (h.history.found tid tx hopen rfl _ _ hfound) hreplay
        obtain ⟨hmem, hwrote⟩ := List.mem_filter.mp hd
        exact ⟨d, hmem, hwrote, hkey, hrequest, hresult⟩
      · rw [hstaged] at h'
        cases h'

/-- An event keeps what the commits of an account say. -/
theorem step_acknowledged (hdb : Consistent C serialize handle db) {account : A}
    {past : List (Event A ε × Option (Commit A))}
    (h : Acknowledged C serialize (handle account) db account (commits account past))
    (event : Event A ε) :
    Acknowledged C serialize (handle account) (step C serialize handle db event).1 account
      (commits account (past ++ [(event, (step C serialize handle db event).2)])) := by
  generalize hstep : step C serialize handle db event = next
  have hstepped := hstep ▸ step_stepped C serialize handle db event
  cases hstepped with
  | @committed tid tx result hopen hrest =>
    obtain ⟨hguaranteed, hfits⟩ := hdb _ _ hopen
    rw [commits_concat_some]
    by_cases haccount : tx.account = account
    · subst haccount
      rw [if_pos rfl]
      exact h.apply hopen hguaranteed hfits hrest
    · obtain ⟨hstates, hmutations⟩ := db.apply_of_ne tid haccount
      rw [if_neg haccount, List.append_nil]
      exact ⟨h.history.congr hstates hmutations fun _ _ hopen' haccount' _ _ =>
        h.history.found_erase hopen' haccount', h.answered⟩
  | unchanged =>
    rw [commits_concat_none]
    exact h
  | started hnew =>
    rw [commits_concat_none]
    exact ⟨h.history.insert fun _ _ _ hfound => (by cases hfound), h.answered⟩
  | advanced hopen hrest hexec =>
    rw [commits_concat_none]
    refine ⟨h.history.insert fun haccount key prior hfound => ?_, h.answered⟩
    rcases Database.execute_found hexec hfound with hfound | hprior
    · exact h.history.found _ _ hopen haccount key prior hfound
    · exact h.history.completed key prior (haccount ▸ hprior)
  | failed hopen hrest =>
    rw [commits_concat_none]
    exact ⟨h.history.insert fun haccount key prior hfound =>
      h.history.found _ _ hopen haccount key prior hfound, h.answered⟩
  | dropped =>
    rw [commits_concat_none]
    exact ⟨h.history.congr rfl rfl fun _ _ hopen haccount _ _ =>
      h.history.found_erase hopen haccount, h.answered⟩

/-- The commits of an account when these events happened to an empty database. -/
def acknowledged (C : CoreRules κ) (serialize : Bool) (handle : A → String)
    (events : List (Event A ε)) (account : A) : List (Commit A) :=
  commits account ((step C serialize handle).log .empty events)

/-- Those that changed the inventory. -/
def committed (C : CoreRules κ) (serialize : Bool) (handle : A → String) (events : List (Event A ε))
    (account : A) : List (Commit A) :=
  changes (acknowledged C serialize handle events account)

/-- Whether or not the lock is one, the committed changes of an account form a chain: each is the
transition of the one before it, from the empty inventory on, and its mutation returned what it
committed; the last one is what is stored. Every commit is such a change, or returned what an
earlier change under the same key returned for the same request. The generations of the changes go
up by one, so at most one transaction replaces a generation. With the lock, at most one commits
under a retry key. -/
theorem mutations_chained (serialize : Bool) (handle : A → String) (events : List (Event A ε))
    (account : A) :
    Chained C (handle account) .default (committed C serialize handle events account) ∧
      ((step C serialize handle).run .empty events).states account =
        (committed C serialize handle events account).getLast?.map
          (fun c => encodeInventory c.result) ∧
      Answered (acknowledged C serialize handle events account) ∧
      (committed C serialize handle events account).map (·.request.predecessorGeneration.toNat) =
        List.range (committed C serialize handle events account).length ∧
      (committed C serialize handle events account).map (·.result.generation.toNat) =
        List.range' 1 (committed C serialize handle events account).length ∧
      (serialize = true →
        ((committed C serialize handle events account).map Commit.key).Nodup) := by
  have hempty : Consistent C serialize handle (.empty : Database A κ ε) ∧
      Acknowledged C serialize (handle account) (.empty : Database A κ ε) account [] := by
    have hopened (tid : Nat) (tx : Transaction A κ ε)
        (hopen : (Database.empty : Database A κ ε).opened.lookup tid = some tx) : False := by
      rw [Database.empty, AList.lookup_empty] at hopen
      cases hopen
    refine ⟨fun tid tx hopen => (hopened tid tx hopen).elim, ⟨trivial, rfl, nofun, nofun, nofun,
      fun tid tx hopen => (hopened tid tx hopen).elim, fun _ => List.nodup_nil⟩, ?_⟩
    intro before c hbefore
    exact absurd (List.prefix_nil.mp hbefore) (by simp)
  obtain ⟨-, h⟩ := (step C serialize handle).log_preserves
    (fun db past => Consistent C serialize handle db ∧
      Acknowledged C serialize (handle account) db account (commits account past))
    (fun _ _ event h => ⟨step_consistent C h.1 event, step_acknowledged h.1 h.2 event⟩)
    hempty events
  rw [← acknowledged] at h
  have hhistory := h.history
  rw [← committed] at hhistory
  obtain ⟨hpredecessors, hresults⟩ := hhistory.chained.generations
  have hzero : DeviceInventory.default.generation.toNat = 0 := rfl
  rw [hzero] at hpredecessors hresults
  exact ⟨hhistory.chained, hhistory.state, h.answered,
    hpredecessors.trans List.range_eq_range'.symm, hresults, hhistory.nodup⟩

/-- The request to link a device to the inventory of a generation. -/
def sampleLink (predecessor : UInt64) (device : UInt32) : Request :=
  .link predecessor ⟨device, .replicate 32 device.toUInt8, 0, none⟩

-- Without the lock, two mutations read the same inventory. The one that writes second is refused. A
-- retry of the first one is answered without a write.
example : (acknowledged CoreRules.sample false (fun () => "acme/alice")
    ([.start 1 () (.replicate 32 1) (sampleLink 0 1),
      .start 2 () (.replicate 32 2) (sampleLink 0 2),
      .advance 1 true, .advance 2 true, .advance 1 true, .advance 2 true, .advance 1 true,
      .advance 2 true, .advance 1 true, .advance 2 true, .advance 1 true, .commit 1,
      .advance 2 true,
      .commit 2, .start 3 () (.replicate 32 1) (sampleLink 0 1), .advance 3 true, .advance 3 true,
      .commit 3] : List (Event Unit Unit)) ()).map
        (fun c => (c.tid, c.result.generation, c.wrote.isSome)) =
          [(1, 1, true), (3, 1, false)] := by
  decide +kernel

end Tacenta.Accounts
