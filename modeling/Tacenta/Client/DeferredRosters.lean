import Mathlib.Data.List.Sort
import Tacenta.Group.RosterView

/-!
# Held roster controls

A roster control that arrives ahead of its predecessor is held, at most four of them and one for
each revision, until the view reaches it. A member without a view keeps the lowest revisions it is
sent.

## Main definitions

* `DeferredRosters`, with `hold`, `holdKeepingLowest`, `pruneThrough`, `remove`, `nextFor` and the
  checkpoint record `encodeRecord`, `decodeRecord`.
* `Hold`: what holding a control did.
-/

open ByteString Result Tacenta.Group

namespace Tacenta.Client

/-- Largest number of held controls. -/
def maxDeferredRosters : Nat := 4

/-- How far past the view's next revision a control is held. -/
def holdAhead : UInt64 := 4

/-- What holding a control did. -/
inductive Hold where
  | held
  | duplicate
  | refused
  deriving DecidableEq

/-- The controls that wait for their predecessor. -/
structure DeferredRosters where
  /-- The controls, in the order of their revisions. -/
  rosters : List Roster
  deriving DecidableEq

namespace DeferredRosters

/-- No held control. -/
def empty : DeferredRosters := ⟨[]⟩

/-- Hold a control; a different control for a held revision is refused. -/
def hold (q : DeferredRosters) (roster : Roster) : DeferredRosters × Hold :=
  match q.rosters.find? fun held => held.revision = roster.revision with
  | some existing => (q, if existing = roster then .duplicate else .refused)
  | none =>
    if q.rosters.length = maxDeferredRosters then (q, .refused)
    else
      (⟨(q.rosters ++ [roster]).insertionSort fun a b => a.revision ≤ b.revision⟩, .held)

/-- Hold a control without a view: in a full queue a lower one replaces the highest. -/
def holdKeepingLowest (q : DeferredRosters) (roster : Roster) : DeferredRosters × Hold :=
  if q.rosters.length = maxDeferredRosters
      ∧ ¬q.rosters.any (fun held => held.revision = roster.revision)
      ∧ q.rosters.getLast?.any (fun highest => roster.revision < highest.revision) then
    hold ⟨q.rosters.dropLast⟩ roster
  else q.hold roster

/-- Drop the controls that the view has passed. -/
def pruneThrough (q : DeferredRosters) (revision : UInt64) : DeferredRosters :=
  ⟨q.rosters.filter fun held => revision < held.revision⟩

/-- Drop the control of a revision. -/
def remove (q : DeferredRosters) (revision : UInt64) : DeferredRosters :=
  ⟨q.rosters.filter fun held => held.revision ≠ revision⟩

/-- The held control that succeeds the view. -/
def nextFor (q : DeferredRosters) (view : RosterView) : Option Roster :=
  q.rosters.find? fun held => view.roster.revision ≠ Group.reservedRevision
    ∧ held.revision = view.roster.revision + 1 ∧ held.predecessorDigest = view.digest

/-! ### The checkpoint record -/

/-- Tag of the record of held controls. -/
def recordTag : Bytes := ascii "TCGQ"

/-- Append one control's preimage. -/
def putRoster (out : Bytes) (roster : Roster) : Except Error Bytes := do
  putLp out (← roster.encode)

/-- The checkpoint record of a group. -/
def encodeRecord (q : DeferredRosters) (groupId : GroupId) : Except Error Bytes := do
  refuseIf (2 ^ 8 ≤ q.rosters.length) .malformed
  q.rosters.foldlM putRoster (recordTag ++ groupId.bytes.val ++ [q.rosters.length.toUInt8])

/-- Take one control after those taken before it. -/
def takeRoster (groupId : GroupId) (pinnedAuthority : Member) (taken : List Roster) :
    Reader Error (List Roster) := do
  let preimage ← Reader.takeLp .malformed
  let roster ← Roster.decode preimage
  refuseIf (roster.groupId ≠ groupId ∨ roster.authority ≠ pinnedAuthority
    ∨ taken.getLast?.any fun previous => roster.revision ≤ previous.revision) Error.nonCanonical
  let encoded ← roster.encode
  refuseIf (encoded ≠ preimage) Error.nonCanonical
  pure (taken ++ [roster])

/-- The reader of `decodeRecord`. -/
def readRecord (groupId : GroupId) (pinnedAuthority : Member) : Reader Error DeferredRosters := do
  Reader.takeExact .malformed recordTag
  Reader.takeExact .malformed groupId.bytes.val
  let count ← Reader.takeByte .malformed
  refuseIf (maxDeferredRosters < count.toNat) Error.malformed
  let rosters ← Reader.loop (takeRoster groupId pinnedAuthority) count.toNat []
  Reader.finish .malformed
  pure ⟨rosters⟩

/-- Restore a canonical record of the group, whose controls are of the pinned authority. -/
def decodeRecord (record : Bytes) (groupId : GroupId) (pinnedAuthority : Member) :
    Except Error DeferredRosters :=
  (readRecord groupId pinnedAuthority).run' record

end DeferredRosters

end Tacenta.Client
