import Tacenta.Library.Execution
import Tacenta.Transport.Frame

/-!
# Frames over any reads

A call of a reader of frames awaits reads of its stream, each of which returns any part of what was
asked for, and may be dropped at every await. What it read until then stays in the reader, and the
next call goes on from there. The calls that complete return the frames of the stream one after the
other, as a parser of the whole byte string finds them, however the stream was divided into reads
and whichever calls were dropped.

## Main definitions

* `Reading.step`: calls, reads and drops on one stream.
* `parse`: the frames of a byte string, and why there is no further one.

## Main results

* `Reading.step_moved`: what an event does, in terms of the bytes that were not returned yet.
* `frames_read_exactly`: the completed calls return what the parser finds.
-/

open ByteString

namespace Tacenta.Transport

/-! ### Calls, reads and drops -/

/-- A reader, what was not read of its stream, and what a call awaits. -/
structure Reading where
  reader : FrameReader
  /-- The bytes to be read, after which the stream ends. -/
  stream : Bytes
  /-- The most that the read asks for which a call awaits. -/
  awaiting : Option Nat

namespace Reading

/-- What can happen: a call of `next`, the end of the read that it awaits, and its drop. -/
inductive Event where
  | call
  | read (size : Nat)
  | drop

/-- A new reader of a stream. -/
def start (stream : Bytes) : Reading := ⟨.new, stream, none⟩

/-- The call awaits a read, or returned. -/
def settle (stream : Bytes) :
    FrameReader × FrameReader.Progress → Reading × Option (Except IoError (Option Bytes))
  | (reader, .reads wanted) => (⟨reader, stream, some wanted⟩, none)
  | (reader, .returns result) => (⟨reader, stream, none⟩, some result)

/-- One event, with the result of the call that it completed. A read returns at least one byte and
at most what it asks for, and nothing only at the end of the stream; a dropped read takes
nothing. -/
def step : Machine Reading Event (Option (Except IoError (Option Bytes)))
  | s, .call =>
    match s.awaiting with
    | some _ => (s, none)
    | none => settle s.stream s.reader.advance
  | s, .read size =>
    match s.awaiting with
    | none => (s, none)
    | some wanted =>
      settle (s.stream.drop (min (size + 1) wanted))
        (s.reader.resume (.ok (s.stream.take (min (size + 1) wanted))))
  | s, .drop => ({ s with awaiting := none }, none)

/-- The results of the completed calls, in order. -/
def results (stream : Bytes) (events : List Event) : List (Except IoError (Option Bytes)) :=
  (step.log (start stream) events).filterMap Prod.snd

end Reading

/-! ### The parser of a whole byte string -/

/-- Why there is no further frame. -/
inductive Ending where
  /-- The bytes end at a frame boundary or in a length. -/
  | clean
  /-- The next length is too large. -/
  | tooLong
  /-- The bytes end in a body. -/
  | truncated
  deriving DecidableEq

/-- The frames of a byte string, why there is no further one, and the bytes after them. -/
structure Parsed where
  frames : List Bytes
  ending : Ending
  rest : Bytes
  deriving DecidableEq

/-- A frame before others. -/
def Parsed.cons (frame : Bytes) (p : Parsed) : Parsed := { p with frames := frame :: p.frames }

/-- Divide a byte string into lengths of four bytes and that many bytes after each. -/
def parse (s : Bytes) : Parsed :=
  if s.length < 4 then ⟨[], .clean, s⟩
  else if maxFrameLen < ofBe (s.take 4) then ⟨[], .tooLong, s⟩
  else if s.length < 4 + ofBe (s.take 4) then ⟨[], .truncated, s⟩
  else (parse (s.drop (4 + ofBe (s.take 4)))).cons ((s.drop 4).take (ofBe (s.take 4)))
termination_by s.length
decreasing_by
  rw [List.length_drop]
  omega

/-- What a call returns where there is no further frame. -/
def Ending.result : Ending → Except IoError (Option Bytes)
  | clean => .ok none
  | tooLong => .error .invalidData
  | truncated => .error .unexpectedEof

/-- The results of the first calls: the frames, and then the same answer forever. -/
def Parsed.answers (p : Parsed) (n : Nat) : List (Except IoError (Option Bytes)) :=
  (p.frames.map (fun frame => Except.ok (some frame)) ++ List.replicate n p.ending.result).take n

theorem Parsed.answers_zero (p : Parsed) : p.answers 0 = [] := List.take_zero

theorem Parsed.answers_cons (frame : Bytes) (p : Parsed) (n : Nat) :
    (p.cons frame).answers (n + 1) = .ok (some frame) :: p.answers n := by
  have hmore : List.replicate (n + 1) p.ending.result =
      List.replicate n p.ending.result ++ [p.ending.result] := List.replicate_succ'
  simp [answers, cons, hmore, ← List.append_assoc, List.take_append_of_le_length]

theorem Parsed.answers_of_nil {p : Parsed} (h : p.frames = []) (n : Nat) :
    p.answers (n + 1) = p.ending.result :: p.answers n := by
  simp [answers, h, List.replicate_succ]

theorem parse_of_length_lt {s : Bytes} (h : s.length < 4) : parse s = ⟨[], .clean, s⟩ := by
  rw [parse, if_pos h]

section Header

variable {header : Bytes} (hheader : header.length = 4)
include hheader

theorem parse_tooLong (rest : Bytes) (h : maxFrameLen < ofBe header) :
    parse (header ++ rest) = ⟨[], .tooLong, header ++ rest⟩ := by
  have htake : (header ++ rest).take 4 = header := List.take_left' hheader
  rw [parse, htake, if_neg (by simp [hheader]), if_pos h]

theorem parse_truncated {rest : Bytes} (hle : ofBe header ≤ maxFrameLen)
    (h : rest.length < ofBe header) :
    parse (header ++ rest) = ⟨[], .truncated, header ++ rest⟩ := by
  have htake : (header ++ rest).take 4 = header := List.take_left' hheader
  rw [parse, htake, if_neg (by simp [hheader]), if_neg (by omega),
    if_pos (by simp [hheader, h])]

theorem parse_frame {body : Bytes} (rest : Bytes) (hle : ofBe header ≤ maxFrameLen)
    (h : body.length = ofBe header) :
    parse (header ++ (body ++ rest)) = (parse rest).cons body := by
  have htake : (header ++ (body ++ rest)).take 4 = header := List.take_left' hheader
  have hdrop : (header ++ (body ++ rest)).drop 4 = body ++ rest := List.drop_left' hheader
  rw [parse, htake, if_neg (by simp [hheader]), if_neg (by omega),
    if_neg (by simp [hheader, ← h]), ← List.drop_drop, hdrop, ← h, List.drop_left, List.take_left]

end Header

theorem parse_writeFrame {data frame : Bytes} (hframe : writeFrame data = some frame)
    (hlen : data.length ≤ maxFrameLen) (rest : Bytes) :
    parse (frame ++ rest) = (parse rest).cons data := by
  obtain ⟨hlt, rfl⟩ := writeFrame_eq_some.mp hframe
  have hof := ofBe_header hlt
  rw [List.append_assoc, parse_frame (length_u32Bytes _) _ (hof.symm ▸ hlen) hof.symm]

/-! ### Runs -/

namespace Reading

/-- The bytes that were not returned yet. -/
def unread (s : Reading) : Bytes := s.reader.taken ++ s.stream

/-- The reader is sound, and a call awaits what is missing. -/
structure Steady (s : Reading) : Prop where
  sound : s.reader.Sound
  awaits : ∀ wanted, s.awaiting = some wanted → s.reader.Awaits wanted

/-- What an event does to the bytes `u` that were not returned yet: nothing is returned, the next
frame is, or that there is none and why. -/
inductive Moved (u : Bytes) : Reading × Option (Except IoError (Option Bytes)) → Prop where
  | silent {s} (hsteady : s.Steady) (hu : s.unread = u) : Moved u (s, none)
  | frame {s frame} (hsteady : s.Steady) (hparse : parse u = (parse s.unread).cons frame) :
    Moved u (s, some (.ok (some frame)))
  | ended {s} (hsteady : s.Steady) (hu : s.unread = u) (hframes : (parse u).frames = [])
    (hidle : s.awaiting = none) (hrefused : (parse u).ending = .tooLong → s.reader.Refused) :
    Moved u (s, some (parse u).ending.result)

variable {r : FrameReader} {stream : Bytes}

theorem moved_reads (hsound : r.Sound) {wanted : Nat} (h : r.Awaits wanted) (stream : Bytes) :
    Moved (r.taken ++ stream) (settle stream (r, .reads wanted)) :=
  .silent ⟨hsound, fun _ heq => Option.some_inj.mp heq ▸ h⟩ rfl

theorem moved_ended (hsound : r.Sound) {ending : Ending}
    (hparse : parse (r.taken ++ stream) = ⟨[], ending, r.taken ++ stream⟩)
    (hrefused : ending = .tooLong → r.Refused) :
    Moved (r.taken ++ stream) (settle stream (r, .returns ending.result)) := by
  have hended : Moved (r.taken ++ stream)
      (⟨r, stream, none⟩, some (parse (r.taken ++ stream)).ending.result) :=
    .ended ⟨hsound, fun _ h => by cases h⟩ rfl (by rw [hparse]) rfl
      fun h => hrefused (by rwa [hparse] at h)
  rwa [hparse] at hended

theorem moved_of_took {bytes : Bytes} {p : FrameReader × FrameReader.Progress}
    (h : FrameReader.Took bytes p) (stream : Bytes) :
    Moved (bytes ++ stream) (settle stream p) := by
  cases h with
  | reads hsound hawaits htaken => exact htaken ▸ moved_reads hsound hawaits stream
  | frame hlen hframe =>
    exact .frame ⟨FrameReader.sound_new, fun _ h => by cases h⟩
      (parse_writeFrame hframe hlen stream)
  | @refused r hsound hrefused htaken =>
    have hheader : r.taken = r.header := by
      rw [FrameReader.taken, hsound.body_nil hrefused.bodyLen_eq, List.append_nil]
    have hparse := parse_tooLong hrefused.header_eq stream hrefused.tooLong
    rw [← hheader] at hparse
    exact htaken ▸ moved_ended hsound hparse fun _ => hrefused

/-- A call whose read returned nothing, at the end of the stream. -/
theorem moved_end (hsound : r.Sound) {wanted : Nat} (h : r.Awaits wanted) :
    Moved (r.taken ++ []) (settle [] (r.resume (.ok []))) := by
  rw [FrameReader.resume_nil]
  obtain ⟨hshort, rfl⟩ | ⟨len, hlen, hlt, rfl⟩ := h
  · have hparse : parse (r.taken ++ []) = ⟨[], .clean, r.taken ++ []⟩ := by
      rw [List.append_nil, FrameReader.taken, hsound.body_nil (hsound.bodyLen_eq_none hshort),
        List.append_nil]
      exact parse_of_length_lt hshort
    rw [if_pos hshort]
    exact moved_ended hsound hparse fun h => by cases h
  · obtain ⟨hheader, hof, hmax, -⟩ := hsound.checked len hlen
    have hparse : parse (r.taken ++ []) = ⟨[], .truncated, r.taken ++ []⟩ := by
      rw [List.append_nil]
      exact parse_truncated hheader (hof ▸ hmax) (hof ▸ hlt)
    rw [if_neg (by omega)]
    exact moved_ended hsound hparse fun h => by cases h

/-- An event returns nothing and loses nothing, or returns the next frame, or that there is none. -/
theorem step_moved {s : Reading} (h : s.Steady) (event : Event) :
    Moved s.unread (step s event) := by
  cases event with
  | call =>
    rw [step]
    split
    · exact .silent h rfl
    · exact moved_of_took (FrameReader.took_advance h.sound) s.stream
  | read size =>
    rw [step]
    split
    · exact .silent h rfl
    · next wanted hawaiting =>
      have hawaits := h.awaits wanted hawaiting
      by_cases hend : s.stream = []
      · rw [unread, hend, List.take_nil, List.drop_nil]
        exact moved_end h.sound hawaits
      · have hbytes : s.stream.take (min (size + 1) wanted) ≠ [] := by
          have hpos := hawaits.pos
          rw [Ne, List.take_eq_nil_iff, not_or]
          exact ⟨by omega, hend⟩
        have hnext := moved_of_took (FrameReader.took_resume h.sound hawaits hbytes
          ((List.length_take_le _ _).trans (Nat.min_le_right _ _)))
          (s.stream.drop (min (size + 1) wanted))
        rw [List.append_assoc, List.take_append_drop] at hnext
        exact hnext
  | drop => exact .silent ⟨h.sound, fun _ h => by cases h⟩ rfl

theorem Moved.steady {u : Bytes} {p : Reading × Option (Except IoError (Option Bytes))}
    (h : Moved u p) : p.1.Steady := by
  cases h with
  | silent hsteady => exact hsteady
  | frame hsteady => exact hsteady
  | ended hsteady => exact hsteady

theorem steady_start (stream : Bytes) : (start stream).Steady :=
  ⟨FrameReader.sound_new, fun _ h => by cases h⟩

/-- What holds after some events: what was returned and what is left to return make up what the
parser finds. -/
structure Followed (stream : Bytes) (s : Reading)
    (past : List (Event × Option (Except IoError (Option Bytes)))) : Prop where
  steady : s.Steady
  answers_eq : ∀ n, (parse stream).answers ((past.filterMap Prod.snd).length + n) =
    past.filterMap Prod.snd ++ (parse s.unread).answers n
  rest_eq : (parse s.unread).rest = (parse stream).rest
  refused : .error .invalidData ∈ past.filterMap Prod.snd →
    s.awaiting = none ∧ s.reader.Refused

theorem followed_start (stream : Bytes) : Followed stream (start stream) [] where
  steady := steady_start stream
  answers_eq n := by
    rw [List.filterMap_nil, List.length_nil, Nat.zero_add, List.nil_append]
    rfl
  rest_eq := rfl
  refused h := absurd h List.not_mem_nil

/-- A reader that refused a length stays where it is. -/
theorem step_of_refused {s : Reading} (hidle : s.awaiting = none) (h : s.reader.Refused)
    (event : Event) : (step s event).1.awaiting = none ∧ (step s event).1.reader = s.reader := by
  cases event with
  | call =>
    simp only [step, hidle, h.advance_eq, settle, and_self]
  | read size =>
    simp only [step, hidle, and_self]
  | drop => exact ⟨rfl, rfl⟩

theorem followed_step {stream : Bytes} {s : Reading}
    {past : List (Event × Option (Except IoError (Option Bytes)))} (h : Followed stream s past)
    (event : Event) :
    Followed stream (step s event).1 (past ++ [(event, (step s event).2)]) := by
  have hstays : .error .invalidData ∈ past.filterMap Prod.snd →
      (step s event).1.awaiting = none ∧ (step s event).1.reader.Refused := by
    intro hmem
    obtain ⟨hidle, hrefused⟩ := h.refused hmem
    obtain ⟨hidle', hreader⟩ := step_of_refused hidle hrefused event
    exact ⟨hidle', hreader ▸ hrefused⟩
  have hmoved := step_moved h.steady event
  generalize step s event = next at hmoved hstays
  cases hmoved with
  | @silent s' hsteady hu =>
    exact ⟨hsteady, by simpa [hu] using h.answers_eq, by rw [hu, h.rest_eq], by simpa using hstays⟩
  | @frame s' frame hsteady hparse =>
    refine ⟨hsteady, fun n => ?_, ?_, by simpa using hstays⟩
    · have hnext := h.answers_eq (n + 1)
      rw [hparse, Parsed.answers_cons] at hnext
      simpa [Nat.add_assoc, Nat.add_comm 1] using hnext
    · rw [← h.rest_eq, hparse]
      rfl
  | @ended s' hsteady hu hframes hidle hrefused =>
    have htooLong : .error .invalidData = (parse s.unread).ending.result →
        (parse s.unread).ending = .tooLong := by
      cases (parse s.unread).ending <;> simp [Ending.result]
    refine ⟨hsteady, fun n => ?_, by rw [hu, h.rest_eq], fun hmem => ?_⟩
    · have hnext := h.answers_eq (n + 1)
      rw [Parsed.answers_of_nil hframes] at hnext
      simpa [hu, Nat.add_assoc, Nat.add_comm 1] using hnext
    · rw [List.filterMap_append, List.mem_append] at hmem
      rcases hmem with hmem | hmem
      · exact hstays hmem
      · exact ⟨hidle, hrefused (htooLong (by simpa using hmem))⟩

theorem followed_run (stream : Bytes) (events : List Event) :
    Followed stream (step.run (start stream) events) (step.log (start stream) events) :=
  Machine.log_preserves (Followed stream) (fun _ _ event h => followed_step h event)
    (followed_start stream) events

/-! ### Calls complete -/

theorem settle_stream (stream : Bytes) (p : FrameReader × FrameReader.Progress) :
    (settle stream p).1.stream = stream := by
  obtain ⟨reader, wanted | result⟩ := p <;> rfl

/-- Nothing is put back into the stream. -/
theorem length_stream_step (s : Reading) (event : Event) :
    (step s event).1.stream.length ≤ s.stream.length := by
  cases event with
  | call =>
    rw [step]
    split
    · exact Nat.le_refl _
    · rw [settle_stream]
  | read size =>
    rw [step]
    split
    · exact Nat.le_refl _
    · rw [settle_stream, List.length_drop]
      exact Nat.sub_le _ _
  | drop => exact Nat.le_refl _

/-- A read completes the call, or leaves less of the stream. -/
theorem read_progress {s : Reading} (h : s.Steady) (hcalling : s.awaiting ≠ none) (size : Nat) :
    (step s (.read size)).2 ≠ none ∨ (step s (.read size)).1.awaiting ≠ none ∧
      (step s (.read size)).1.stream.length < s.stream.length := by
  obtain ⟨wanted, hawaiting⟩ := Option.ne_none_iff_exists'.mp hcalling
  have hpos := (h.awaits wanted hawaiting).pos
  have hstep : step s (.read size) = settle (s.stream.drop (min (size + 1) wanted))
      (s.reader.resume (.ok (s.stream.take (min (size + 1) wanted)))) := by
    simp only [step, hawaiting]
  rw [hstep]
  cases hstream : s.stream with
  | nil =>
    left
    rw [List.take_nil, FrameReader.resume]
    split
    · exact Option.some_ne_none _
    · exact Option.some_ne_none _
  | cons byte rest =>
    cases hprogress : s.reader.resume (.ok ((byte :: rest).take (min (size + 1) wanted))) with
    | mk reader progress =>
      cases progress with
      | returns result => exact .inl (Option.some_ne_none _)
      | reads wanted' =>
        refine .inr ⟨Option.some_ne_none _, ?_⟩
        change ((byte :: rest).drop (min (size + 1) wanted)).length < _
        rw [List.length_drop, List.length_cons]
        omega

/-- A call that awaits a read completes after as many reads as there are bytes, and one more. -/
theorem reads_complete {s : Reading} (h : s.Steady) (hcalling : s.awaiting ≠ none)
    {sizes : List Nat} (hsizes : s.stream.length < sizes.length) :
    (step.log s (sizes.map .read)).filterMap Prod.snd ≠ [] := by
  induction sizes generalizing s with
  | nil => exact absurd hsizes (Nat.not_lt_zero _)
  | cons size sizes ih =>
    have hsteady := (step_moved h (.read size)).steady
    rw [List.map_cons, Machine.log_cons]
    rcases read_progress h hcalling size with hdone | ⟨hawaiting, hless⟩
    · obtain ⟨result, hresult⟩ := Option.ne_none_iff_exists'.mp hdone
      rw [hresult]
      exact List.cons_ne_nil _ _
    · have hrest := ih hsteady hawaiting (by rw [List.length_cons] at hsizes; omega)
      intro hnil
      rw [List.filterMap_eq_nil_iff] at hnil
      exact hrest (List.filterMap_eq_nil_iff.mpr fun entry hentry =>
        hnil entry (List.mem_cons_of_mem _ hentry))

end Reading

/-- Frames that were written are what the parser finds. -/
theorem parse_written {datas frames : List Bytes}
    (hlen : ∀ data ∈ datas, data.length ≤ maxFrameLen)
    (hframes : datas.mapM writeFrame = some frames) :
    parse frames.flatten = ⟨datas, .clean, []⟩ := by
  induction datas generalizing frames with
  | nil =>
    obtain rfl := Option.some_inj.mp hframes
    exact parse_of_length_lt (by decide)
  | cons data datas ih =>
    obtain ⟨hdata, hdatas⟩ := List.forall_mem_cons.mp hlen
    rw [List.mapM_cons, Option.bind_eq_bind, Option.bind_eq_some_iff] at hframes
    obtain ⟨frame, hframe, hrest⟩ := hframes
    rw [Option.bind_eq_bind, Option.bind_eq_some_iff] at hrest
    obtain ⟨frames, hmap, hcons⟩ := hrest
    obtain rfl := Option.some_inj.mp hcons
    rw [List.flatten_cons, parse_writeFrame hframe hdata, ih hdatas hmap]
    rfl

/-- The completed calls on a stream return what the parser of the whole stream finds, in order: the
frames, and then why there is no further one, again on every further call. A length that is refused
leaves no body allocated and the bytes after it unread. A call that awaits a read completes after as
many reads as there are bytes and one more. Frames that were written are returned as they were. -/
theorem frames_read_exactly (stream : Bytes) (events : List Reading.Event) :
    Reading.results stream events =
        (parse stream).answers (Reading.results stream events).length ∧
      (.error .invalidData ∈ Reading.results stream events →
        (Reading.step.run (.start stream) events).reader.bodyLen = none ∧
          (Reading.step.run (.start stream) events).reader.body = [] ∧
          (Reading.step.run (.start stream) events).stream = (parse stream).rest.drop 4) ∧
      ((Reading.step.run (.start stream) events).awaiting ≠ none →
        ∀ sizes : List Nat, stream.length < sizes.length →
          (Reading.results stream events).length <
            (Reading.results stream (events ++ sizes.map .read)).length) ∧
      ∀ datas frames, (∀ data ∈ datas, data.length ≤ maxFrameLen) →
        datas.mapM writeFrame = some frames → stream = frames.flatten →
          parse stream = ⟨datas, .clean, []⟩ := by
  have hrun := Reading.followed_run stream events
  refine ⟨?_, fun hmem => ?_, fun hcalling sizes hsizes => ?_,
    fun _ _ hlen hframes hstream => hstream ▸ parse_written hlen hframes⟩
  · have hanswers := hrun.answers_eq 0
    rw [Parsed.answers_zero, List.append_nil, Nat.add_zero] at hanswers
    exact hanswers.symm
  · obtain ⟨-, hrefused⟩ := hrun.refused hmem
    have hbody := hrun.steady.sound.body_nil hrefused.bodyLen_eq
    refine ⟨hrefused.bodyLen_eq, hbody, ?_⟩
    have hunread : (Reading.step.run (.start stream) events).unread =
        (Reading.step.run (.start stream) events).reader.header ++
          (Reading.step.run (.start stream) events).stream := by
      rw [Reading.unread, FrameReader.taken, hbody, List.append_nil]
    rw [← hrun.rest_eq, hunread, parse_tooLong hrefused.header_eq _ hrefused.tooLong]
    exact (List.drop_left' hrefused.header_eq).symm
  · have hle : (Reading.step.run (.start stream) events).stream.length ≤ stream.length :=
      Machine.run_preserves (fun s : Reading => s.stream.length ≤ stream.length)
        (fun s event h => (Reading.length_stream_step s event).trans h) (Nat.le_refl _) events
    rw [Reading.results, Reading.results, Machine.log_append, List.filterMap_append,
      List.length_append]
    have hne := Reading.reads_complete hrun.steady hcalling (hle.trans_lt hsizes)
    have hpos := List.length_pos_iff.mpr hne
    omega

end Tacenta.Transport
