import Tacenta.Group.Invitation

/-!
# The payload of a group envelope

A group envelope carries one tagged payload: an application message, a roster, or one of the three
messages about an invitation.

## Main definitions

* `GroupPayload`, with `GroupPayload.encode` and `GroupPayload.decode`.
* `GroupPayload.isControl`: the payloads that a control outbox carries.
-/

open ByteString Result

namespace Tacenta.Group

def groupPayloadDomain : Bytes := ascii "Tacenta Group Payload v1"

/-- Longest payload in bytes. -/
def maxGroupPayloadLen : Nat := 8192

/-- What a group envelope carries. -/
inductive GroupPayload where
  | application (context : ApplicationContext)
  | roster (roster : Roster)
  | invitationBootstrap (bootstrap : InvitationBootstrap)
  | invitationAcceptance (acceptance : InvitationAcceptance)
  | invitationRevocation (revocation : InvitationRevocation)
  deriving DecidableEq

namespace GroupPayload

/-- The tag of a payload's kind. -/
def tag : GroupPayload → UInt8
  | .application _ => 1
  | .roster _ => 2
  | .invitationBootstrap _ => 3
  | .invitationAcceptance _ => 4
  | .invitationRevocation _ => 5

/-- The bytes after the tag, without their length. -/
def encodeValue : GroupPayload → Except Error Bytes
  | .application context => context.encode
  | .roster r => r.encode
  | .invitationBootstrap bootstrap => bootstrap.encode
  | .invitationAcceptance acceptance => InvitationAcceptance.encode acceptance
  | .invitationRevocation revocation => InvitationRevocation.encode revocation

def encode (p : GroupPayload) : Except Error Bytes := do
  let value ← p.encodeValue
  let out ← putLp (groupPayloadDomain ++ [p.tag]) value
  refuseIf (maxGroupPayloadLen < out.length) .malformed
  pure out

/-- Decode the bytes after a tag. -/
def decodeValue (tag : UInt8) (value : Bytes) : Except Error GroupPayload :=
  match tag with
  | 1 => .application <$> ApplicationContext.decode value
  | 2 => .roster <$> Roster.decode value
  | 3 => .invitationBootstrap <$> InvitationBootstrap.decode value
  | 4 => .invitationAcceptance <$> InvitationAcceptance.decode value
  | 5 => .invitationRevocation <$> InvitationRevocation.decode value
  | _ => .error .malformed

/-- The reader of `decode`. -/
def read : Reader Error GroupPayload := do
  Reader.takeExact .malformed groupPayloadDomain
  let tag ← Reader.takeByte .malformed
  let value ← Reader.takeLp .malformed
  Reader.finish .malformed
  decodeValue tag value

def decode (bytes : Bytes) : Except Error GroupPayload := do
  refuseIf (maxGroupPayloadLen < bytes.length) .malformed
  read.run' bytes

/-- Whether the payload is a control rather than an application message. -/
def isControl : GroupPayload → Bool
  | .application _ => false
  | _ => true

end GroupPayload

end Tacenta.Group
