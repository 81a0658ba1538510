import Tacenta.Library.Reader

/-!
# Frames

Every message on a connection is a frame: its length in four bytes and its body. A reader of frames
keeps what it has read of the current frame, since a read of the stream may return any part of what
was asked for. The length comes from the wire and is checked before a body is read.

A call of the reader goes on from one await to the next: it is described by what it does up to its
next read, at its start and after a read. A call that is not dropped makes its reads one after the
other, of whichever stream it is given.

## Main definitions

* `writeFrame`, `writeTagged`: what is written for a body.
* `FrameReader`, `FrameReader.advance`, `FrameReader.resume`: the reader of frames, and a call of it
  up to its next await.
* `FrameReader.next`: a call that is not dropped.

## Main results

* `FrameReader.Took`: what a call can do up to its next await, with `FrameReader.took_advance` and
  `FrameReader.took_resume`.
* `FrameReader.next_eq_frame`: a frame is read from any division of its bytes into reads.
-/

open ByteString

namespace Tacenta.Transport

/-- The longest body of a frame. -/
def maxFrameLen : Nat := 16777216

/-- The tag of a frame that answers a request. -/
def tagResponse : UInt8 := 0

/-- A frame; there is none for a body whose length does not fit four bytes. -/
def writeFrame (data : Bytes) : Option Bytes :=
  if 2 ^ 32 ≤ data.length then none else some (u32Bytes data.length.toUInt32 ++ data)

theorem writeFrame_eq_some {data frame : Bytes} :
    writeFrame data = some frame ↔
      data.length < 2 ^ 32 ∧ frame = u32Bytes data.length.toUInt32 ++ data := by
  rw [writeFrame]
  split
  · next h =>
    simp only [reduceCtorEq, false_iff]
    exact fun hlt => absurd hlt.1 (not_lt.mpr h)
  · next h => rw [Option.some_inj, and_iff_right (not_le.mp h), eq_comm]

/-- A header of four bytes is the length that it says. -/
theorem eq_header {header : Bytes} (h : header.length = 4) :
    header = u32Bytes (ofBe header).toUInt32 :=
  eq_u32Bytes_iff.mpr ⟨h, rfl⟩

theorem ofBe_header {data : Bytes} (h : data.length < 2 ^ 32) :
    ofBe (u32Bytes data.length.toUInt32) = data.length := by
  rw [u32Bytes, toNat_toUInt32_of_lt h, ofBe_toBe h]

/-- The length in front of a frame. -/
theorem ofBe_of_append_eq {data header x y : Bytes} (hlt : data.length < 2 ^ 32)
    (hheader : header.length = 4) (h : header ++ x = u32Bytes data.length.toUInt32 ++ y) :
    ofBe header = data.length := by
  rw [(List.append_inj h (by rw [hheader, length_u32Bytes])).1, ofBe_header hlt]

/-- A frame ends where its length says. -/
theorem writeFrame_append_inj {data data' frame frame' x y : Bytes}
    (hframe : writeFrame data = some frame) (hframe' : writeFrame data' = some frame')
    (h : frame ++ x = frame' ++ y) : data = data' ∧ x = y := by
  obtain ⟨hlt, rfl⟩ := writeFrame_eq_some.mp hframe
  obtain ⟨hlt', rfl⟩ := writeFrame_eq_some.mp hframe'
  rw [List.append_assoc, List.append_assoc] at h
  have hlength := ofBe_of_append_eq hlt' (length_u32Bytes _) h
  rw [ofBe_header hlt] at hlength
  exact List.append_inj (List.append_inj h (by simp)).2 hlength

/-- A frame of the server, whose body starts with a tag. -/
def writeTagged (tag : UInt8) (payload : Bytes) : Option Bytes := writeFrame (tag :: payload)

/-- The errors of reads and writes of a stream, and of a reader of frames. -/
inductive IoError where
  | invalidData
  | unexpectedEof
  | writeZero
  | other (code : Nat)
  deriving DecidableEq

/-- A reader of frames, with what it has read of the current one. -/
structure FrameReader where
  /-- The bytes of the length that were read. -/
  header : Bytes
  /-- The length, once it was read and checked. -/
  bodyLen : Option Nat
  /-- The bytes of the body that were read. -/
  body : Bytes
  deriving DecidableEq

namespace FrameReader

/-- Nothing was read. -/
def new : FrameReader := ⟨[], none, []⟩

/-- How a call goes on: it awaits a read of at most so many bytes, or it returns. -/
inductive Progress where
  | reads (wanted : Nat)
  | returns (result : Except IoError (Option Bytes))
  deriving DecidableEq

/-- A call whose frame has a length that was checked: read the rest of the body or return it. -/
def advanceBody (r : FrameReader) (len : Nat) : FrameReader × Progress :=
  if r.body.length < len then (r, .reads (len - r.body.length))
  else (new, .returns (.ok (some r.body)))

/-- A call up to its next await. -/
def advance (r : FrameReader) : FrameReader × Progress :=
  if r.header.length < 4 then (r, .reads (4 - r.header.length))
  else
    match r.bodyLen with
    | some len => r.advanceBody len
    | none =>
      -- the length comes from the wire and is refused before a body is allocated
      if maxFrameLen < ofBe r.header then (r, .returns (.error .invalidData))
      else { r with bodyLen := some (ofBe r.header), body := [] }.advanceBody (ofBe r.header)

/-- A call that awaited bytes of the length. The end of the stream is no error here, also where the
stream reports it as one. -/
def resumeHeader (r : FrameReader) : Except IoError Bytes → FrameReader × Progress
  | .error .unexpectedEof => (r, .returns (.ok none))
  | .error e => (r, .returns (.error e))
  | .ok [] => (r, .returns (.ok none))
  | .ok (byte :: bytes) => { r with header := r.header ++ byte :: bytes }.advance

/-- A call that awaited bytes of the body. -/
def resumeBody (r : FrameReader) : Except IoError Bytes → FrameReader × Progress
  | .error e => (r, .returns (.error e))
  | .ok [] => (r, .returns (.error .unexpectedEof))
  | .ok (byte :: bytes) => { r with body := r.body ++ byte :: bytes }.advance

/-- A call after the read that it awaited, up to its next await. -/
def resume (r : FrameReader) (read : Except IoError Bytes) : FrameReader × Progress :=
  if r.header.length < 4 then r.resumeHeader read else r.resumeBody read

/-- Await reads until the call returns. -/
def complete {m : Type → Type} [Monad m] (read : Nat → m (Except IoError Bytes)) :
    Nat → FrameReader × Progress → m (FrameReader × Except IoError (Option Bytes))
  | _, (r, .returns result) => pure (r, result)
  | 0, (r, .reads _) => pure (r, .ok none)
  | rounds + 1, (r, .reads wanted) => do complete read rounds (r.resume (← read wanted))

theorem complete_returns {m : Type → Type} [Monad m] (read : Nat → m (Except IoError Bytes))
    (rounds : Nat) (r : FrameReader) (result : Except IoError (Option Bytes)) :
    complete read rounds (r, .returns result) = pure (r, result) := by
  cases rounds <;> rfl

/-- The next frame of a stream, or none at its end. A read that does not end the call returns a
byte, so there are no more reads than bytes of the longest frame. -/
def next {m : Type → Type} [Monad m] (r : FrameReader) (read : Nat → m (Except IoError Bytes)) :
    m (FrameReader × Except IoError (Option Bytes)) :=
  complete read (4 + maxFrameLen) r.advance

/-! ### What a reader holds -/

/-- What was read of the current frame. -/
def taken (r : FrameReader) : Bytes := r.header ++ r.body

/-- A reader holds part of a length, or a length that was checked and part of its body. -/
structure Sound (r : FrameReader) : Prop where
  header_le : r.header.length ≤ 4
  body_nil : r.bodyLen = none → r.body = []
  checked : ∀ len, r.bodyLen = some len →
    r.header.length = 4 ∧ len = ofBe r.header ∧ len ≤ maxFrameLen ∧ r.body.length ≤ len

theorem sound_new : new.Sound :=
  ⟨Nat.zero_le _, fun _ => rfl, fun _ h => by cases h⟩

theorem Sound.bodyLen_eq_none {r : FrameReader} (h : r.Sound) (hshort : r.header.length < 4) :
    r.bodyLen = none := by
  cases hlen : r.bodyLen with
  | none => rfl
  | some len => exact absurd (h.checked len hlen).1 (Nat.ne_of_lt hshort)

/-- The reader holds a length that is too large. -/
structure Refused (r : FrameReader) : Prop where
  header_eq : r.header.length = 4
  bodyLen_eq : r.bodyLen = none
  tooLong : maxFrameLen < ofBe r.header

theorem Refused.advance_eq {r : FrameReader} (h : r.Refused) :
    r.advance = (r, .returns (.error .invalidData)) := by
  rw [advance, if_neg (by rw [h.header_eq]; exact Nat.lt_irrefl 4), h.bodyLen_eq]
  exact if_pos h.tooLong

/-- The call awaits a read of this many bytes of the length or of the body. -/
def Awaits (r : FrameReader) (wanted : Nat) : Prop :=
  r.header.length < 4 ∧ wanted = 4 - r.header.length ∨
    ∃ len, r.bodyLen = some len ∧ r.body.length < len ∧ wanted = len - r.body.length

theorem Awaits.pos {r : FrameReader} {wanted : Nat} (h : r.Awaits wanted) : 0 < wanted := by
  obtain ⟨_, rfl⟩ | ⟨len, -, _, rfl⟩ := h <;> omega

theorem Awaits.length_taken_lt {r : FrameReader} {wanted : Nat} (h : r.Awaits wanted)
    (hsound : r.Sound) : r.taken.length < 4 + maxFrameLen := by
  rw [taken, List.length_append]
  obtain ⟨hshort, rfl⟩ | ⟨len, hlen, hlt, rfl⟩ := h
  · have hnone : r.bodyLen = none := hsound.bodyLen_eq_none hshort
    rw [hsound.body_nil hnone, List.length_nil]
    omega
  · obtain ⟨hheader, -, hmax, -⟩ := hsound.checked len hlen
    omega

/-! ### What a call does -/

/-- What a call does with the bytes that were taken of the current frame: it awaits more of them,
they are the frame that it returns, or they are a length that it refuses. -/
inductive Took (bytes : Bytes) : FrameReader × Progress → Prop where
  | reads {r wanted} (hsound : r.Sound) (hawaits : r.Awaits wanted) (htaken : r.taken = bytes) :
    Took bytes (r, .reads wanted)
  | frame {data} (hlen : data.length ≤ maxFrameLen) (hframe : writeFrame data = some bytes) :
    Took bytes (new, .returns (.ok (some data)))
  | refused {r} (hsound : r.Sound) (hrefused : r.Refused) (htaken : r.taken = bytes) :
    Took bytes (r, .returns (.error .invalidData))

section Calls

variable {r : FrameReader} (hsound : r.Sound)
include hsound

theorem took_advanceBody {len : Nat} (hlen : r.bodyLen = some len) :
    Took r.taken (r.advanceBody len) := by
  obtain ⟨hheader, hof, hmax, hbody⟩ := hsound.checked len hlen
  rw [advanceBody]
  split
  · next hlt => exact .reads hsound (.inr ⟨len, hlen, hlt, rfl⟩) rfl
  · next hge =>
    have hlength : r.body.length = ofBe r.header := by omega
    refine .frame (by omega) (writeFrame_eq_some.mpr ⟨?_, ?_⟩)
    · exact hlength ▸ ofBe_lt_of_length hheader
    · rw [taken, hlength, ← eq_header hheader]

theorem took_advance : Took r.taken r.advance := by
  rw [advance]
  by_cases hshort : r.header.length < 4
  · rw [if_pos hshort]
    exact .reads hsound (.inl ⟨hshort, rfl⟩) rfl
  rw [if_neg hshort]
  have hheader : r.header.length = 4 := Nat.le_antisymm hsound.header_le (not_lt.mp hshort)
  cases hlen : r.bodyLen with
  | some len => exact took_advanceBody hsound hlen
  | none =>
    dsimp only
    split
    · next hlong => exact .refused hsound ⟨hheader, hlen, hlong⟩ rfl
    · next hle =>
      -- the body is allocated, and the call goes on with it
      have hchecked :
          ({ r with bodyLen := some (ofBe r.header), body := [] } : FrameReader).Sound :=
        ⟨hsound.header_le, fun _ => rfl, fun len h => Option.some_inj.mp h ▸
          ⟨hheader, rfl, not_lt.mp hle, Nat.zero_le _⟩⟩
      have htaken : r.taken = r.header ++ [] := by rw [taken, hsound.body_nil hlen]
      exact htaken ▸ took_advanceBody hchecked rfl

/-- A call after a read that returned some bytes. -/
theorem took_resume {wanted : Nat} (h : r.Awaits wanted) {bytes : Bytes} (hne : bytes ≠ [])
    (hle : bytes.length ≤ wanted) : Took (r.taken ++ bytes) (r.resume (.ok bytes)) := by
  obtain ⟨byte, rest, rfl⟩ := List.exists_cons_of_ne_nil hne
  rw [resume]
  obtain ⟨hshort, rfl⟩ | ⟨len, hlen, hlt, rfl⟩ := h
  · have hlen := hsound.bodyLen_eq_none hshort
    have hsound' : ({ r with header := r.header ++ byte :: rest } : FrameReader).Sound := by
      refine ⟨?_, hsound.body_nil, fun len h => ?_⟩
      · change (r.header ++ byte :: rest).length ≤ 4
        rw [List.length_append]
        omega
      · rw [hlen] at h
        cases h
    have htaken (header : Bytes) : ({ r with header } : FrameReader).taken = header := by
      change header ++ r.body = header
      rw [hsound.body_nil hlen, List.append_nil]
    rw [if_pos hshort, htaken r.header, ← htaken (r.header ++ byte :: rest)]
    exact took_advance hsound'
  · obtain ⟨hheader, hof, hmax, -⟩ := hsound.checked len hlen
    have hsound' : ({ r with body := r.body ++ byte :: rest } : FrameReader).Sound := by
      refine ⟨hsound.header_le, fun h => ?_, fun len' h => ?_⟩
      · rw [hlen] at h
        cases h
      · obtain rfl := Option.some_inj.mp (hlen.symm.trans h)
        refine ⟨hheader, hof, hmax, ?_⟩
        change (r.body ++ byte :: rest).length ≤ len
        rw [List.length_append]
        omega
    have hnext := took_advance hsound'
    rw [taken, ← List.append_assoc] at hnext
    rw [if_neg (by omega)]
    exact hnext

end Calls

/-- A call after a read that returned nothing. -/
theorem resume_nil (r : FrameReader) : r.resume (.ok []) =
    (r, .returns (if r.header.length < 4 then .ok none else .error .unexpectedEof)) := by
  rw [resume]
  split <;> rfl

/-- A call whose read failed returns no frame. -/
theorem resume_error (r : FrameReader) (e : IoError) :
    ∃ result, r.resume (.error e) = (r, .returns result) ∧ ∀ data, result ≠ .ok (some data) := by
  rw [resume]
  split
  · cases e <;> exact ⟨_, rfl, fun _ h => by cases h⟩
  · exact ⟨_, rfl, fun _ h => by cases h⟩

/-! ### A stream that is divided into parts -/

/-- A read of a stream returns its next part, or as much of it as was asked for, and nothing at the
end. -/
def readPart (wanted : Nat) : StateM (List Bytes) (Except IoError Bytes)
  | [] => (.ok [], [])
  | part :: stream =>
    if part.length ≤ wanted then (.ok part, stream)
    else (.ok (part.take wanted), part.drop wanted :: stream)

theorem readPart_eq {wanted : Nat} (hwanted : 0 < wanted) {stream : List Bytes}
    (hparts : ∀ part ∈ stream, part ≠ []) (hne : stream.flatten ≠ []) :
    ∃ bytes stream', readPart wanted stream = (.ok bytes, stream') ∧ bytes ≠ [] ∧
      bytes.length ≤ wanted ∧ stream.flatten = bytes ++ stream'.flatten ∧
        ∀ part ∈ stream', part ≠ [] := by
  cases stream with
  | nil => exact absurd rfl hne
  | cons part stream =>
    obtain ⟨hpart, htail⟩ := List.forall_mem_cons.mp hparts
    rw [readPart]
    by_cases hle : part.length ≤ wanted
    · rw [if_pos hle]
      exact ⟨part, stream, rfl, hpart, hle, rfl, htail⟩
    · rw [if_neg hle]
      refine ⟨part.take wanted, _, rfl, ?_, List.length_take_le _ _, ?_,
        List.forall_mem_cons.mpr ⟨?_, htail⟩⟩
      · exact fun hnil => (List.take_eq_nil_iff.mp hnil).elim (fun h => by omega) hpart
      · rw [List.flatten_cons, List.flatten_cons, ← List.append_assoc, List.take_append_drop]
      · exact fun hnil => hle (List.drop_eq_nil_iff.mp hnil)

section Frame

variable {data frame rest : Bytes} (hframe : writeFrame data = some frame)
include hframe

/-- A call awaits no more than the frame that the stream starts with. -/
theorem Awaits.length_taken_lt_frame {r : FrameReader} {wanted : Nat} (h : r.Awaits wanted)
    (hsound : r.Sound) {stream : Bytes} (hstream : r.taken ++ stream = frame ++ rest) :
    r.taken.length < frame.length := by
  obtain ⟨hlt, rfl⟩ := writeFrame_eq_some.mp hframe
  rw [taken, List.append_assoc, List.append_assoc] at hstream
  rw [taken, List.length_append, List.length_append, length_u32Bytes]
  obtain ⟨hshort, rfl⟩ | ⟨len, hlen, hbody, rfl⟩ := h
  · rw [hsound.body_nil (hsound.bodyLen_eq_none hshort), List.length_nil]
    omega
  · obtain ⟨hheader, hof, -, -⟩ := hsound.checked len hlen
    have hlength := ofBe_of_append_eq hlt hheader hstream
    omega

/-- A frame that is returned is the one that the stream starts with. -/
theorem Took.eq_frame {bytes stream data' : Bytes} {r : FrameReader}
    (h : Took bytes (r, .returns (.ok (some data')))) (hstream : bytes ++ stream = frame ++ rest) :
    r = new ∧ data' = data ∧ stream = rest := by
  cases h with
  | frame hlen' hframe' => exact ⟨rfl, writeFrame_append_inj hframe' hframe hstream⟩

/-- A length is not refused if the stream starts with a frame that is not too long. -/
theorem Took.exists_frame (hlen : data.length ≤ maxFrameLen) {bytes stream : Bytes}
    {r : FrameReader} {result : Except IoError (Option Bytes)}
    (h : Took bytes (r, .returns result)) (hstream : bytes ++ stream = frame ++ rest) :
    ∃ data', result = .ok (some data') := by
  cases h with
  | frame => exact ⟨_, rfl⟩
  | refused hsound hrefused htaken =>
    obtain ⟨hlt, rfl⟩ := writeFrame_eq_some.mp hframe
    rw [← htaken, taken, List.append_assoc, List.append_assoc] at hstream
    have hlength := ofBe_of_append_eq hlt hrefused.header_eq hstream
    exact absurd hrefused.tooLong (by omega)

/-- A call on a stream that starts with a frame returns it. -/
theorem complete_eq_frame (hlen : data.length ≤ maxFrameLen) {bytes : Bytes} {rounds : Nat}
    {p : FrameReader × Progress} (h : Took bytes p) {stream : List Bytes}
    (hparts : ∀ part ∈ stream, part ≠ []) (hstream : bytes ++ stream.flatten = frame ++ rest)
    (hrounds : 4 + maxFrameLen ≤ rounds + bytes.length) :
    ∃ stream', (complete readPart rounds p).run stream = ((new, .ok (some data)), stream') ∧
      stream'.flatten = rest := by
  obtain ⟨r, wanted | result⟩ := p
  · cases h with
    | reads hsound hawaits htaken =>
    subst htaken
    cases rounds with
    | zero =>
      have := hawaits.length_taken_lt hsound
      omega
    | succ rounds =>
      -- there is a byte to be read, since the call awaits a part of the frame
      have hmissing := hawaits.length_taken_lt_frame hframe hsound hstream
      have hne : stream.flatten ≠ [] := fun hnil => by
        rw [hnil, List.append_nil] at hstream
        rw [hstream, List.length_append] at hmissing
        omega
      obtain ⟨bytes, stream', hread, hbytes, hle, hflatten, hparts'⟩ :=
        readPart_eq hawaits.pos hparts hne
      have htook := took_resume hsound hawaits hbytes hle
      rw [hflatten, ← List.append_assoc] at hstream
      have hpos := List.length_pos_iff.mpr hbytes
      obtain ⟨stream'', hrun, hrest⟩ := complete_eq_frame hlen htook hparts' hstream
        (show _ ≤ rounds + _ by rw [List.length_append]; omega)
      refine ⟨stream'', ?_, hrest⟩
      rw [complete, StateT.run_bind]
      change (complete readPart rounds (r.resume (readPart wanted stream).1)).run
        (readPart wanted stream).2 = _
      rw [hread]
      exact hrun
  · obtain ⟨data', rfl⟩ := h.exists_frame hframe hlen hstream
    obtain ⟨rfl, rfl, hrest⟩ := h.eq_frame hframe hstream
    rw [complete_returns]
    exact ⟨stream, rfl, hrest⟩
termination_by rounds

/-- A frame is read from any division of its bytes into reads. -/
theorem next_eq_frame (hlen : data.length ≤ maxFrameLen) {stream : List Bytes}
    (hparts : ∀ part ∈ stream, part ≠ []) (hstream : stream.flatten = frame ++ rest) :
    ∃ stream', (new.next readPart).run stream = ((new, .ok (some data)), stream') ∧
      stream'.flatten = rest :=
  complete_eq_frame hframe hlen (took_advance sound_new) hparts hstream (Nat.le_add_right _ _)

end Frame

end FrameReader

end Tacenta.Transport
