import Tacenta.Client.Connected
import Tacenta.Library.Calls

/-!
# Lookups and dropped calls

One client and its connection to the directory. The server answers each frame that it reads exactly
once and in order, with whatever the directory says. What the client writes and reads passes in
parts, and any call may be dropped before any of its operations.

Answers are paired with requests by their order on the connection alone. A call that starts while
nothing is in flight on the connection reads the answer to its own request. After a call was dropped
between writing its request and reading all of the answer, the next call reads that answer instead.

Each byte that the client writes carries the number of the call that wrote it, so that the request
that an answer is for is known to be of that call. The numbers are not part of what is sent.

## Main definitions

* `Connection`, `Connection.serve`: what is in flight, and the server.
* `directoryCalls`: the calls of a client over such a connection.
* `Quiet`, `Uses`: nothing is in flight, and the calls that make a request.

## Main results

* `established_as_answered`: the keys of a new session are the answer to the call's own lookup.
* `dropped_lookup_misleads`: they are those of another device after a call was dropped.
-/

open ByteString Result Tacenta.Core
open Tacenta.Relay (DeviceAddr)

namespace Tacenta.Connected

open Program (ensures_bind ensures_ask ensures_ite ensures_caught ensures_lift)
open Sealed (Client peerAddress)
open Transport (FrameReader IoError)

/-! ### The connection and the server -/

/-- A connection to the directory. -/
structure Connection where
  challenge : Bytes
  /-- What the client wrote and the server has not read, with the numbers of the calls. -/
  toServer : List (Nat × UInt8)
  /-- What the server wrote and the client has not read. -/
  toClient : Bytes
  /-- The requests that the server has read, with its answers. -/
  answered : List (List (Nat × UInt8) × Bytes)
  /-- Whether the server closed the connection. -/
  closed : Bool

/-- Bytes that a call wrote. -/
def tagged (n : Nat) (data : Bytes) : List (Nat × UInt8) := data.map fun byte => (n, byte)

namespace Connection

/-- A connection that was just established. -/
def fresh (challenge : Bytes) : Connection := ⟨challenge, [], [], [], false⟩

/-- A call writes some bytes. -/
def written (c : Connection) (n : Nat) (data : Bytes) : Connection :=
  { c with toServer := c.toServer ++ tagged n data }

/-- The client reads some bytes. -/
def consumed (c : Connection) (count : Nat) : Connection :=
  { c with toClient := c.toClient.drop count }

/-- The length of the request that the server reads next. -/
def nextLength (c : Connection) : Nat := ofBe ((c.toServer.take 4).map Prod.snd)

/-- The server has received a whole frame. -/
def HasRequest (c : Connection) : Prop :=
  c.nextLength ≤ Transport.maxFrameLen ∧ 4 + c.nextLength ≤ c.toServer.length

instance (c : Connection) : Decidable c.HasRequest := inferInstanceAs (Decidable (_ ∧ _))

/-- The server reads a frame and answers it. -/
def serve (c : Connection) (body : Bytes) : Connection :=
  if c.closed ∨ ¬c.HasRequest then c
  else
    match Transport.writeFrame body with
    | none => c
    | some frame =>
      { c with
        toServer := c.toServer.drop (4 + c.nextLength)
        toClient := c.toClient ++ frame
        answered := c.answered ++ [((c.toServer.drop 4).take c.nextLength, body)] }

/-- A read of the client may return these bytes: a part of what was written, or nothing at the
end. -/
def Readable (c : Connection) (wanted : Nat) (chunk : Bytes) : Prop :=
  chunk ≠ [] ∧ chunk.length ≤ wanted ∧ chunk.isPrefixOf c.toClient ∨
    chunk = [] ∧ c.closed ∧ c.toClient = []

instance (c : Connection) (wanted : Nat) (chunk : Bytes) : Decidable (c.Readable wanted chunk) :=
  inferInstanceAs (Decidable (_ ∨ _))

end Connection

/-- Nothing is in flight. -/
def Quiet (c : Connection) : Prop := c.toServer = [] ∧ c.toClient = []

instance (c : Connection) : Decidable (Quiet c) := inferInstanceAs (Decidable (_ ∧ _))

/-- What the server does on its own. -/
inductive ServerAct where
  | serve (body : Bytes)
  | close

/-- A client with its connection to the directory, and one that was dialled and not adopted yet. -/
structure Site (π τ : Type) where
  client : Client π τ
  directory : Connection
  dialled : Option Connection

variable {π τ : Type}

namespace Site

def act : ServerAct → Site π τ → Site π τ
  | .serve body, s => { s with directory := s.directory.serve body }
  | .close, s => { s with directory := { s.directory with closed := true } }

/-- The surroundings decide how many bytes a write takes, what a read returns of the bytes that are
there, whether a connection fails, and what the provider, the store and the relay say. -/
def answer (n : Nat) (i : Op π τ) (choice : (i : Op π τ) → i.Answer) (s : Site π τ) :
    Option (Site π τ × i.Answer) :=
  match i with
  | .client => some (s, s.client)
  | .update f => some ({ s with client := f s.client }, ())
  | .challenge => some (s, s.directory.challenge)
  | .write data =>
    match choice (.write data) with
    | .error e => some (s, .error e)
    | .ok count =>
      some ({ s with directory := s.directory.written n (data.take count) },
        .ok (data.take count).length)
  | .read wanted =>
    match choice (.read wanted) with
    | .error e => some (s, .error e)
    | .ok chunk =>
      if s.directory.Readable wanted chunk then
        some ({ s with directory := s.directory.consumed chunk.length }, .ok chunk)
      else none
  | .dialDirectory =>
    match choice .dialDirectory with
    | .error e => some (s, .error e)
    | .ok () => some ({ s with dialled := some (.fresh (choice .challenge)) }, .ok ())
  | .adopt => some (⟨s.client, s.dialled.getD s.directory, none⟩, ())
  | i => some (s, choice i)

end Site

inductive DirectoryCall where
  | send (recipient : DeviceAddr) (message : Bytes)
  | find (username : String)
  | checkpoint
  | reconnect

def DirectoryCall.Result : DirectoryCall → Type
  | send _ _ => Except Error Unit
  | find _ => Except Error (Option DeviceAddr)
  | checkpoint => Except Error Directory.Response
  | reconnect => Except Error Unit

/-- The future of a call. -/
def DirectoryCall.program : (k : DirectoryCall) → Program (Op π τ) Op.Answer k.Result
  | send recipient message => (Connected.send recipient message).run
  | find username => (Connected.find username).run
  | checkpoint => Connected.checkpoint.run
  | reconnect => Connected.reconnect.run

/-- The calls of a client over its connection to the directory. -/
def directoryCalls (π τ : Type) : Calls.Setting (Site π τ) (Op π τ) Op.Answer DirectoryCall
    DirectoryCall.Result ((i : Op π τ) → i.Answer) ServerAct where
  program k := k.program
  answer n _ i choice s := s.answer n i choice
  keep _ _ s := s
  act := Site.act

/-- A call that makes a request to the directory, unless its arguments are refused. -/
def Uses (k : DirectoryCall) (client : Client π τ) : Prop :=
  match k with
  | .send recipient _ => recipient ∉ client.sessions
  | .find _ => True
  | .checkpoint => True
  | .reconnect => False

/-! ### What the server does to an exchange -/

theorem length_tagged (n : Nat) (data : Bytes) : (tagged n data).length = data.length :=
  List.length_map _

theorem map_snd_tagged (n : Nat) (data : Bytes) : (tagged n data).map Prod.snd = data := by
  rw [tagged, List.map_map]
  exact List.map_id _

/-- A call is writing a request of which it wrote a part, or is reading the answer, of which it has
a part. -/
structure InFlight (n : Nat) (request frame sent got : Bytes) (c : Connection) : Prop where
  starts : sent <+: frame
  state : (got = [] ∧ c.toServer = tagged n sent ∧ c.toClient = []) ∨
    (sent = frame ∧ c.toServer = [] ∧ ∃ body answer, Transport.writeFrame body = some answer ∧
      (tagged n request, body) ∈ c.answered ∧ got ++ c.toClient = answer)

namespace InFlight

variable {n : Nat} {request frame sent got : Bytes} {c : Connection}

theorem of_quiet (n : Nat) (request frame : Bytes) (h : Quiet c) :
    InFlight n request frame [] [] c :=
  ⟨List.nil_prefix, .inl ⟨rfl, h.1, h.2⟩⟩

/-- The server reads a request only when all of it was written. -/
theorem eq_of_hasRequest (hframe : Transport.writeFrame request = some frame)
    (hsent : sent <+: frame) (hserver : c.toServer = tagged n sent) (h : c.HasRequest) :
    sent = frame ∧ c.nextLength = request.length := by
  obtain ⟨hlt, rfl⟩ := Transport.writeFrame_eq_some.mp hframe
  obtain ⟨-, hlength⟩ := h
  rw [hserver, length_tagged] at hlength
  have hheader : sent.take 4 = u32Bytes request.length.toUInt32 := by
    rw [List.prefix_iff_eq_take.mp hsent, List.take_take, Nat.min_eq_left (by omega),
      List.take_append_of_le_length (by rw [length_u32Bytes]), List.take_of_length_le]
    rw [length_u32Bytes]
  have hnext : c.nextLength = request.length := by
    rw [Connection.nextLength, hserver, List.map_take, map_snd_tagged, hheader,
      Transport.ofBe_header hlt]
  refine ⟨hsent.eq_of_length_le ?_, hnext⟩
  rw [List.length_append, length_u32Bytes]
  omega

theorem serve (hframe : Transport.writeFrame request = some frame)
    (h : InFlight n request frame sent got c) (body : Bytes) :
    InFlight n request frame sent got (c.serve body) := by
  rw [Connection.serve]
  split
  · exact h
  next hserves =>
  split
  · exact h
  next answer hanswer =>
  have hrequest : c.HasRequest := Decidable.not_not.mp (not_or.mp hserves).2
  obtain ⟨rfl, hserver, hclient⟩ | ⟨-, hserver, -⟩ := h.state
  · obtain ⟨rfl, hnext⟩ := eq_of_hasRequest hframe h.starts hserver hrequest
    obtain ⟨-, rfl⟩ := Transport.writeFrame_eq_some.mp hframe
    refine ⟨h.starts, .inr ⟨rfl, ?_, body, answer, hanswer, ?_, ?_⟩⟩
    · change c.toServer.drop (4 + c.nextLength) = []
      rw [hserver, hnext, List.drop_eq_nil_iff, length_tagged, List.length_append, length_u32Bytes]
    · refine List.mem_append_right _ (List.mem_singleton.mpr (Prod.ext ?_ rfl))
      rw [hserver, hnext, tagged, tagged, List.map_append, List.drop_left' (by simp),
        List.take_of_length_le (by simp)]
    · change [] ++ (c.toClient ++ answer) = answer
      rw [hclient, List.nil_append, List.nil_append]
  · have := hrequest.2
    rw [hserver, List.length_nil] at this
    omega

end InFlight

/-! ### Interference -/

/-- The server has acted since. -/
def Site.Later (s t : Site π τ) : Prop :=
  ∃ acts : List ServerAct, t = acts.foldl (fun s e => Site.act e s) s

namespace Site.Later

variable {s t u : Site π τ}

theorem refl (s : Site π τ) : s.Later s := ⟨[], rfl⟩

theorem trans (h : s.Later t) (h' : t.Later u) : s.Later u := by
  obtain ⟨acts, rfl⟩ := h
  obtain ⟨more, rfl⟩ := h'
  exact ⟨acts ++ more, List.foldl_append.symm⟩

theorem keeps {I : Site π τ → Prop} (hact : ∀ e s, I s → I (Site.act e s)) (h : s.Later t)
    (hs : I s) : I t := by
  obtain ⟨acts, rfl⟩ := h
  induction acts generalizing s with
  | nil => exact hs
  | cons e acts ih => exact ih (hact e s hs)

theorem client_eq (h : s.Later t) : t.client = s.client := by
  refine h.keeps (I := fun t => t.client = s.client) (fun e t ht => ?_) rfl
  cases e with
  | serve body => exact ht
  | close => exact ht

/-- What serving a request keeps of the connection is kept, if it does not depend on whether the
connection is closed. -/
theorem directory {I : Connection → Prop} (hserve : ∀ c body, I c → I (c.serve body))
    (hclose : ∀ c, I c → I { c with closed := true }) (h : s.Later t) (hs : I s.directory) :
    I t.directory := by
  refine h.keeps (I := fun t => I t.directory) (fun e t ht => ?_) hs
  cases e with
  | serve body => exact hserve _ body ht
  | close => exact hclose _ ht

end Site.Later

variable {s t : Site π τ} {n : Nat}

theorem Quiet.later (h : s.Later t) (hs : Quiet s.directory) : Quiet t.directory := by
  refine h.directory (fun c body hc => ?_) (fun c hc => hc) hs
  have hnone : ¬c.HasRequest := by
    rintro ⟨-, hlength⟩
    rw [hc.1, List.length_nil] at hlength
    omega
  rwa [Connection.serve, if_pos (.inr hnone)]

theorem InFlight.later {request frame sent got : Bytes}
    (hframe : Transport.writeFrame request = some frame) (h : s.Later t)
    (hs : InFlight n request frame sent got s.directory) :
    InFlight n request frame sent got t.directory :=
  h.directory (fun _ body hc => hc.serve hframe body) (fun _ hc => ⟨hc.starts, hc.state⟩) hs

/-- The server answered a request of a call. -/
def Answered (n : Nat) (request body : Bytes) (c : Connection) : Prop :=
  (tagged n request, body) ∈ c.answered

theorem Answered.later {request body : Bytes} (h : s.Later t)
    (hs : Answered n request body s.directory) : Answered n request body t.directory := by
  refine h.directory (fun c body hc => ?_) (fun _ hc => hc) hs
  rw [Connection.serve]
  split
  · exact hc
  split
  · exact hc
  · exact List.mem_append_left _ hc

/-- The directory answered a lookup of a device, made by a call, with an identity and a bundle. -/
def FoundBy (n : Nat) (device : DeviceAddr) (identity bundle : Bytes) (c : Connection) : Prop :=
  ∃ request body, Directory.encodeDirRequest (.lookup device) = .ok request ∧
    Answered n request body c ∧ Directory.decodeDirResponse body = some (.found identity bundle)

theorem FoundBy.later {device : DeviceAddr} {identity bundle : Bytes} (h : s.Later t)
    (hs : FoundBy n device identity bundle s.directory) :
    FoundBy n device identity bundle t.directory := by
  obtain ⟨request, body, hrequest, hanswered, hbody⟩ := hs
  exact ⟨request, body, hrequest, hanswered.later h, hbody⟩

/-! ### The operations of a send -/

/-- A session is established for the recipient of a send with the keys that its lookup found. -/
def EstablishedAsFound (n : Nat) : DirectoryCall → Op π τ → Site π τ → Prop
  | .send recipient _, .establishSessionFor peer bundle identity, s =>
    peerAddress recipient = .ok peer ∧ FoundBy n recipient identity bundle s.directory
  | _, _, _ => True

/-- What a part of a send guarantees. -/
abbrev Sends {α : Type} (n : Nat) (recipient : DeviceAddr) (message : Bytes)
    (Q : α → Site π τ → Prop) (E : Error → Site π τ → Prop) (x : Future π τ α) (s : Site π τ) :
    Prop :=
  Program.Ensures ((directoryCalls π τ).Answers (fun _ => Site.Later) n (.send recipient message))
    (EstablishedAsFound n (.send recipient message)) Q E x s

section Operations

variable {n : Nat} {recipient : DeviceAddr} {message : Bytes} {E : Error → Site π τ → Prop}
  {s : Site π τ}

theorem sends_client {Q : Client π τ → Site π τ → Prop} (h : ∀ t, s.Later t → Q s.client t) :
    Sends n recipient message Q E (ask .client) s := by
  refine ensures_ask.mpr ⟨trivial, ?_⟩
  rintro answer s' ⟨t, choice, hlater, hanswer⟩
  cases hanswer
  exact hlater.client_eq ▸ h _ hlater

theorem sends_update {Q : Unit → Site π τ → Prop} {f : Client π τ → Client π τ}
    (h : ∀ t, s.Later t → Q () { t with client := f t.client }) :
    Sends n recipient message Q E (ask (.update f)) s := by
  refine ensures_ask.mpr ⟨trivial, ?_⟩
  rintro answer s' ⟨t, choice, hlater, hanswer⟩
  cases hanswer
  exact h t hlater

theorem sends_write {Q : Except IoError Nat → Site π τ → Prop} {data : Bytes}
    (hok : ∀ t count, s.Later t → Q (.ok (data.take count).length)
      { t with directory := t.directory.written n (data.take count) })
    (herror : ∀ t e, s.Later t → Q (.error e) t) :
    Sends n recipient message Q E (ask (.write data)) s := by
  refine ensures_ask.mpr ⟨trivial, ?_⟩
  rintro answer s' ⟨t, choice, hlater, hanswer⟩
  simp only [directoryCalls, Site.answer] at hanswer
  split at hanswer <;> cases hanswer
  · exact herror _ _ hlater
  · exact hok t _ hlater

theorem sends_read {Q : Except IoError Bytes → Site π τ → Prop} {wanted : Nat}
    (hok : ∀ t chunk, s.Later t → t.directory.Readable wanted chunk → Q (.ok chunk)
      { t with directory := t.directory.consumed chunk.length })
    (herror : ∀ t e, s.Later t → Q (.error e) t) :
    Sends n recipient message Q E (ask (.read wanted)) s := by
  refine ensures_ask.mpr ⟨trivial, ?_⟩
  rintro answer s' ⟨t, choice, hlater, hanswer⟩
  simp only [directoryCalls, Site.answer] at hanswer
  split at hanswer
  · cases hanswer
    exact herror _ _ hlater
  · split at hanswer
    · next hreadable =>
      cases hanswer
      exact hok t _ hlater hreadable
    · cases hanswer

theorem sends_dialDirectory {Q : Except IoError Unit → Site π τ → Prop}
    (hok : ∀ t challenge, s.Later t → Q (.ok ()) { t with dialled := some (.fresh challenge) })
    (herror : ∀ t e, s.Later t → Q (.error e) t) :
    Sends n recipient message Q E (ask .dialDirectory) s := by
  refine ensures_ask.mpr ⟨trivial, ?_⟩
  rintro answer s' ⟨t, choice, hlater, hanswer⟩
  simp only [directoryCalls, Site.answer] at hanswer
  split at hanswer <;> cases hanswer
  · exact herror _ _ hlater
  · exact hok t _ hlater

theorem sends_adopt {Q : Unit → Site π τ → Prop}
    (h : ∀ t, s.Later t → Q () ⟨t.client, t.dialled.getD t.directory, none⟩) :
    Sends n recipient message Q E (ask .adopt) s := by
  refine ensures_ask.mpr ⟨trivial, ?_⟩
  rintro answer s' ⟨t, choice, hlater, hanswer⟩
  cases hanswer
  exact h t hlater

/-- Operations that do not concern the connection to the directory. -/
def Elsewhere : Op π τ → Prop
  | .flush => True
  | .dialRelay => True
  | .sleep => True
  | .encrypt _ _ => True
  | .bumpRollbackCounter => True
  | .request _ => True
  | _ => False

theorem sends_elsewhere {i : Op π τ} (hi : Elsewhere i) {Q : i.Answer → Site π τ → Prop}
    (h : ∀ t answer, s.Later t → Q answer t) : Sends n recipient message Q E (ask i) s := by
  cases i <;> first | exact hi.elim | skip
  all_goals
    refine ensures_ask.mpr ⟨trivial, ?_⟩
    rintro answer s' ⟨t, choice, hlater, hanswer⟩
    cases hanswer
    exact h _ _ hlater

end Operations

/-! ### One exchange -/

section Exchange

variable {n : Nat} {recipient : DeviceAddr} {message : Bytes} {s : Site π τ} {request frame : Bytes}

theorem sends_writeAll {rounds : Nat} (hframe : Transport.writeFrame request = some frame)
    {sent data : Bytes}
    (hrest : sent ++ data = frame) (hrounds : data.length ≤ rounds)
    (hs : InFlight n request frame sent [] s.directory) :
    Sends n recipient message (fun _ t => InFlight n request frame frame [] t.directory)
      (fun _ _ => True) (writeAll rounds data) s := by
  induction rounds generalizing s sent data with
  | zero =>
    obtain rfl : data = [] := List.eq_nil_of_length_eq_zero (by omega)
    rw [List.append_nil] at hrest
    subst hrest
    exact hs
  | succ rounds ih =>
    rw [writeAll]
    by_cases hdata : data = []
    · subst hdata
      rw [List.append_nil] at hrest
      subst hrest
      rw [if_pos rfl]
      exact hs
    rw [if_neg hdata]
    refine ensures_bind.mpr (sends_write (fun t count hlater => ?_) fun _ _ _ => trivial)
    refine ensures_bind.mpr (ensures_io.mpr ?_)
    refine ensures_ite.mpr ⟨fun _ => trivial, fun hcount => ?_⟩
    have hnow := hs.later hframe hlater
    -- the rest is not written yet, so nothing was answered
    obtain ⟨-, hserver, hclient⟩ : ([] : Bytes) = [] ∧ t.directory.toServer = tagged n sent ∧
        t.directory.toClient = [] := by
      refine hnow.state.resolve_right fun ⟨hsent, _⟩ => hdata ?_
      rw [← hrest] at hsent
      exact List.append_right_eq_self.mp hsent.symm
    have hlength : (data.take count).length ≤ data.length := by
      rw [List.length_take]
      exact Nat.min_le_right _ _
    have hdrop : data.drop (data.take count).length = data.drop count := by
      rw [List.length_take, Nat.min_comm]
      rcases Nat.le_total count data.length with hle | hle
      · rw [Nat.min_eq_right hle]
      · rw [Nat.min_eq_left hle, List.drop_length, List.drop_of_length_le hle]
    have hsplit : (sent ++ data.take count) ++ data.drop (data.take count).length = frame := by
      rw [hdrop, List.append_assoc, List.take_append_drop, hrest]
    refine ih hsplit ?_ ⟨⟨_, hsplit⟩, .inl ⟨rfl, ?_, hclient⟩⟩
    · rw [List.length_drop]
      omega
    · change t.directory.toServer ++ tagged n (data.take count) = _
      rw [hserver, tagged, tagged, tagged, List.map_append]

theorem sends_writeFrame (hs : Quiet s.directory) :
    Sends n recipient message (fun _ t => ∃ frame, Transport.writeFrame request = some frame ∧
      InFlight n request frame frame [] t.directory) (fun _ _ => True) (writeFrame request) s := by
  refine ensures_bind.mpr (ensures_require.mpr ⟨fun frame hframe => ?_, fun _ => trivial⟩)
  refine (sends_writeAll hframe (List.nil_append frame) (Nat.le_refl _)
    (.of_quiet n request frame hs)).bind fun _ t ht => ?_
  refine ensures_bind.mpr (sends_elsewhere (i := .flush) trivial
    fun u answer hlater => ensures_io.mpr ?_)
  cases answer with
  | error e => trivial
  | ok _ => exact ⟨frame, hframe, ht.later hframe hlater⟩

/-- A part of the answer that is read adds to what was read of it. -/
theorem InFlight.read {got chunk : Bytes} {wanted : Nat} {c : Connection}
    (h : InFlight n request frame frame got c) (hchunk : chunk ≠ [])
    (hread : c.Readable wanted chunk) :
    chunk.length ≤ wanted ∧
      InFlight n request frame frame (got ++ chunk) (c.consumed chunk.length) := by
  obtain ⟨-, hlength, hstarts⟩ | ⟨hnil, -⟩ := hread
  · obtain ⟨rest, hrest⟩ := List.isPrefixOf_iff_prefix.mp hstarts
    refine ⟨hlength, h.starts, .inr ?_⟩
    obtain ⟨-, -, hclient⟩ | ⟨-, hserver, body, answer, hbody, hmem, hgot⟩ := h.state
    · rw [hclient] at hrest
      exact absurd (List.append_eq_nil_iff.mp hrest).1 hchunk
    · refine ⟨rfl, hserver, body, answer, hbody, hmem, ?_⟩
      change got ++ chunk ++ c.toClient.drop chunk.length = answer
      rw [← hgot, ← hrest, List.drop_left, List.append_assoc]
  · exact absurd hnil hchunk

/-- The frame that was read of an answer is the answer. -/
theorem InFlight.answered {got data : Bytes} {reader : FrameReader} {c : Connection}
    (h : InFlight n request frame frame got c)
    (htook : FrameReader.Took got (reader, .returns (.ok (some data)))) :
    Answered n request data c ∧ Quiet c := by
  obtain ⟨rfl, -⟩ | ⟨-, hserver, body, answer, hanswer, hmem, hgot⟩ := h.state
  · cases htook with
    | frame hlen hframe =>
      obtain ⟨-, hnil⟩ := Transport.writeFrame_eq_some.mp hframe
      have := congrArg List.length hnil
      rw [List.length_append, length_u32Bytes, List.length_nil] at this
      omega
  · rw [← List.append_nil answer] at hgot
    obtain ⟨-, rfl, hclient⟩ := htook.eq_frame hanswer hgot
    exact ⟨hmem, hserver, hclient⟩

/-- What is read of an answer is a frame only if it is the whole answer. -/
theorem sends_complete {s : Site π τ} {rounds : Nat}
    (hframe : Transport.writeFrame request = some frame) {got : Bytes}
    {p : FrameReader × FrameReader.Progress} (htook : FrameReader.Took got p)
    (hrounds : 4 + Transport.maxFrameLen ≤ rounds + got.length)
    (hs : InFlight n request frame frame got s.directory) :
    Sends n recipient message (fun outcome t => ∀ body, outcome.2 = .ok (some body) →
      Answered n request body t.directory ∧ Quiet t.directory) (fun _ _ => True)
      (FrameReader.complete (fun wanted => ask (.read wanted)) rounds p) s := by
  obtain ⟨reader, wanted | result⟩ := p
  · cases htook with
    | reads hsound hawaits htaken =>
    subst htaken
    cases rounds with
    | zero =>
      have := hawaits.length_taken_lt hsound
      omega
    | succ rounds =>
      refine ensures_bind.mpr (sends_read (fun t chunk hlater hread => ?_) fun t e _ => ?_)
      · by_cases hchunk : chunk = []
        · subst hchunk
          rw [FrameReader.resume_nil, FrameReader.complete_returns]
          intro body hsome
          dsimp only at hsome
          split at hsome <;> cases hsome
        · obtain ⟨hle, hnow⟩ := (hs.later hframe hlater).read hchunk hread
          have hpos : 0 < chunk.length := List.length_pos_of_ne_nil hchunk
          exact sends_complete hframe (FrameReader.took_resume hsound hawaits hchunk hle)
            (by rw [List.length_append]; omega) hnow
      · obtain ⟨result, hresume, hnone⟩ := reader.resume_error e
        rw [hresume, FrameReader.complete_returns]
        exact fun body hsome => absurd hsome (hnone body)
  · rw [FrameReader.complete_returns]
    rintro body rfl
    exact hs.answered htook
termination_by rounds

theorem sends_readFrame (hframe : Transport.writeFrame request = some frame)
    (hs : InFlight n request frame frame [] s.directory) :
    Sends n recipient message (fun result t => ∀ body, result = some body →
      Answered n request body t.directory ∧ Quiet t.directory) (fun _ _ => True) readFrame s := by
  refine (sends_complete hframe (FrameReader.took_advance FrameReader.sound_new)
    (Nat.le_add_right _ _) hs).bind fun outcome t ht => ensures_io.mpr ?_
  cases hresult : outcome.2 with
  | error e => trivial
  | ok result => exact fun body hsome => ht body (hsome ▸ hresult)

/-- On a connection on which nothing is in flight an exchange reads the answer to its own request,
and leaves nothing in flight. -/
theorem sends_exchange (request : Bytes) (hs : Quiet s.directory) :
    Sends n recipient message (fun response t => ∃ body, Answered n request body t.directory ∧
      Directory.decodeDirResponse body = some response ∧ Quiet t.directory) (fun _ _ => True)
      (exchange request) s := by
  refine (sends_writeFrame hs).bind fun _ t ht => ?_
  obtain ⟨frame, hframe, hnow⟩ := ht
  refine (sends_readFrame hframe hnow).bind fun result u hu => ?_
  refine ensures_bind.mpr (ensures_require.mpr ⟨fun body hbody => ?_, fun _ => trivial⟩)
  obtain ⟨hanswered, hquiet⟩ := hu body hbody
  exact ensures_require.mpr ⟨fun response hresponse => ⟨body, hanswered, hresponse, hquiet⟩,
    fun _ => trivial⟩

theorem sends_fetchBundle {device : DeviceAddr} (hs : Quiet s.directory) :
    Sends n recipient message
      (fun published t => FoundBy n device published.1 published.2 t.directory) (fun _ _ => True)
      (fetchBundle device) s := by
  refine ensures_bind.mpr (ensures_bind.mpr (ensures_lift.mpr ?_))
  cases hrequest : Directory.encodeDirRequest (.lookup device) with
  | error e => trivial
  | ok request =>
    refine (sends_exchange request hs).mono (fun response t ht => ?_)
      fun _ _ _ => trivial
    obtain ⟨body, hanswered, hbody, -⟩ := ht
    cases response with
    | found identity bundle => exact ⟨request, body, hrequest, hanswered, hbody⟩
    | _ => trivial

end Exchange

/-! ### A whole send -/

section Send

variable {n : Nat} {recipient : DeviceAddr} {message : Bytes} {s : Site π τ}

theorem sends_reconnect : Sends n recipient message (fun _ t => Quiet t.directory)
    (fun _ _ => True) reconnect s := by
  refine ensures_bind.mpr (sends_dialDirectory (fun t challenge _ => ?_) fun _ _ _ => trivial)
  refine ensures_bind.mpr (ensures_io.mpr ?_)
  refine ensures_bind.mpr (sends_elsewhere (i := .dialRelay) trivial fun u answer hlater => ?_)
  refine ensures_bind.mpr (ensures_io.mpr ?_)
  cases answer with
  | error e => trivial
  | ok _ =>
    have hdialled : u.dialled = some (.fresh challenge) := by
      refine hlater.keeps (I := fun u => u.dialled = some (.fresh challenge)) (fun e u hu => ?_) rfl
      cases e with
      | serve body => exact hu
      | close => exact hu
    refine sends_adopt fun v hlater' => ?_
    have hstill : v.dialled = some (.fresh challenge) := by
      refine hlater'.keeps (I := fun v => v.dialled = some (.fresh challenge)) (fun e v hv => ?_)
        hdialled
      cases e with
      | serve body => exact hv
      | close => exact hv
    change Quiet (v.dialled.getD v.directory)
    rw [hstill]
    exact ⟨rfl, rfl⟩

theorem sends_retryReconnect {attempts : Nat} {outcome : Except Error Unit}
    (hs : outcome = .ok () → Quiet s.directory) :
    Sends n recipient message (fun _ t => Quiet t.directory) (fun _ _ => True)
      (retryReconnect attempts outcome) s := by
  induction attempts generalizing s outcome with
  | zero =>
    refine ensures_lift.mpr ?_
    cases outcome with
    | error e => trivial
    | ok _ => exact hs rfl
  | succ attempts ih =>
    cases outcome with
    | ok _ => exact hs rfl
    | error e =>
      refine ensures_bind.mpr (sends_elsewhere (i := .sleep) trivial fun t _ _ => ?_)
      refine ensures_bind.mpr (ensures_caught.mpr ?_)
      exact sends_reconnect.mono (fun _ u hu => ih fun _ => hu)
        fun e u _ => ih fun hok => (by cases hok)

theorem sends_reconnectWithPatience : Sends n recipient message (fun _ t => Quiet t.directory)
    (fun _ _ => True) reconnectWithPatience s :=
  ensures_bind.mpr (ensures_caught.mpr (sends_reconnect.mono
    (fun _ _ hu => sends_retryReconnect fun _ => hu)
    fun _ _ _ => sends_retryReconnect fun hok => (by cases hok)))

theorem sends_fetchBundleAgain {device : DeviceAddr} (hs : Quiet s.directory) :
    Sends n recipient message
      (fun published t => FoundBy n device published.1 published.2 t.directory) (fun _ _ => True)
      (fetchBundleAgain device) s := by
  refine ensures_bind.mpr (ensures_caught.mpr ((sends_fetchBundle hs).mono
    (fun published t ht => ht) fun e t _ => ?_))
  cases e with
  | io kind =>
    exact sends_reconnectWithPatience.bind fun _ u hu => sends_fetchBundle hu
  | _ => trivial

theorem sends_openSession {peer : Address} (hpeer : peerAddress recipient = .ok peer)
    (hs : recipient ∉ s.client.sessions → Quiet s.directory) :
    Sends n recipient message (fun _ _ => True) (fun _ _ => True)
      (openSession recipient peer) s := by
  refine ensures_bind.mpr (sends_client fun t hlater => ?_)
  refine ensures_ite.mpr ⟨fun _ => trivial, fun hnew => ?_⟩
  refine (sends_fetchBundleAgain (Quiet.later hlater (hs hnew))).bind fun published u hu => ?_
  refine ensures_bind.mpr (ensures_ask.mpr ⟨⟨hpeer, hu⟩, fun answer v _ => ?_⟩)
  refine ensures_bind.mpr (ensures_provider.mpr ?_)
  cases answer with
  | error e => trivial
  | ok _ => exact sends_update fun _ _ => trivial

theorem sends_commitRatchetAdvance : Sends n recipient message (fun _ _ => True) (fun _ _ => True)
    commitRatchetAdvance s := by
  refine ensures_bind.mpr (sends_client fun t _ => ?_)
  refine ensures_ite.mpr ⟨fun _ => ?_, fun _ => trivial⟩
  refine ensures_bind.mpr
    (sends_elsewhere (i := .bumpRollbackCounter) trivial fun u answer _ => ?_)
  refine ensures_bind.mpr (ensures_sealing.mpr ?_)
  cases answer with
  | error e => trivial
  | ok advanced =>
    exact ensures_ite.mpr ⟨fun _ => trivial, fun _ => sends_update fun _ _ => trivial⟩

theorem sends_relayRequest {request : Relay.Request} :
    Sends n recipient message (fun _ _ => True) (fun _ _ => True) (relayRequest request) s := by
  refine ensures_bind.mpr
    (sends_elsewhere (i := .request request) trivial fun t answer _ => ensures_io.mpr ?_)
  cases answer <;> trivial

theorem sends_dispatchPreparedSend {request : Relay.Request} :
    Sends n recipient message (fun _ _ => True) (fun _ _ => True)
      (dispatchPreparedSend request) s := by
  refine ensures_bind.mpr (ensures_bind.mpr (ensures_caught.mpr
    (sends_relayRequest.mono (fun response t _ => ?_) fun e t _ => ?_)))
  · cases response with
    | none => trivial
    | some response => cases response <;> trivial
  · refine sends_reconnectWithPatience.bind fun _ u _ => ?_
    refine sends_relayRequest.mono (fun response _ _ => ?_) fun _ _ _ => trivial
    cases response with
    | none => trivial
    | some response => cases response <;> trivial

/-- A send that starts while nothing is in flight, or that needs no lookup, establishes a session
only with the keys that its own lookup found. -/
theorem sends_send (hs : recipient ∉ s.client.sessions → Quiet s.directory) :
    Sends n recipient message (fun _ _ => True) (fun _ _ => True) (send recipient message) s := by
  refine ensures_bind.mpr (ensures_ite.mpr ⟨fun _ => trivial, fun _ => ?_⟩)
  refine ensures_bind.mpr (ensures_sealing.mpr ?_)
  cases hpeer : peerAddress recipient with
  | error e => trivial
  | ok peer =>
    refine (sends_openSession hpeer hs).bind fun _ t _ => ?_
    refine ensures_bind.mpr
      (sends_elsewhere (i := .encrypt peer message) trivial fun u answer _ => ?_)
    refine ensures_bind.mpr (ensures_provider.mpr ?_)
    cases answer with
    | error e => trivial
    | ok framed =>
      exact sends_commitRatchetAdvance.bind fun _ _ _ => sends_dispatchPreparedSend

end Send

/-! ### Every run -/

/-- A call that makes a request to the directory is opened only while nothing is in flight. -/
def OpenedQuietly (w : Calls.World Unit (Site π τ) (Op π τ) Op.Answer DirectoryCall
    DirectoryCall.Result) :
    Calls.Event Unit DirectoryCall ((i : Op π τ) → i.Answer) ServerAct → Prop
  | .call _ k => w.pending () = none → Uses k w.shared.client → Quiet w.shared.directory
  | _ => True

theorem directory_rules : Calls.Rules (directoryCalls π τ) OpenedQuietly (fun _ => Site.Later)
    EstablishedAsFound (fun _ _ _ _ => True) fun _ => True where
  refl _ s := .refl s
  trans _ _ _ _ h h' := h.trans h'
  act _ e s := ⟨[e], rfl⟩
  other _ _ hne := absurd rfl hne
  kept _ _ hne := absurd rfl hne
  guard_stable n k i s t hlater hs := by
    cases k with
    | send recipient message =>
      cases i with
      | establishSessionFor peer bundle identity => exact ⟨hs.1, hs.2.later hlater⟩
      | _ => trivial
    | _ => trivial
  post_stable _ _ _ _ _ _ _ := trivial
  call w _ k hnew hquiet _ := by
    cases k with
    | send recipient message =>
      exact Program.Guards.mono (sends_send (hquiet hnew)) fun _ _ _ => trivial
    | _ => exact Program.guards_trivial _ _
  settle _ _ _ _ _ := trivial
  idle _ _ _ := trivial
  drop _ _ _ := trivial

/-- In every run in which calls that make a request to the directory are opened only while nothing
is in flight on the connection, whatever is dropped and whatever fails: the identity and the bundle
with which a send establishes a session are those of the directory's answer to the lookup of the
recipient that this same call sent. -/
theorem established_as_answered (start : Site π τ)
    (events : List (Calls.Event Unit DirectoryCall ((i : Op π τ) → i.Answer) ServerAct))
    (hquiet : (directoryCalls π τ).step.Along OpenedQuietly (.start start) events)
    (event : Calls.Event Unit DirectoryCall ((i : Op π τ) → i.Answer) ServerAct) (n : Nat)
    (recipient : DeviceAddr) (message : Bytes) (peer : Address) (bundle identity : Bytes)
    (answer : Except String Unit)
    (hran : ((directoryCalls π τ).step ((directoryCalls π τ).step.run (.start start) events)
      event).2 = some (.ran n (.send recipient message)
        (.establishSessionFor peer bundle identity) answer)) :
    peerAddress recipient = .ok peer ∧ FoundBy n recipient identity bundle
      ((directoryCalls π τ).step.run (.start start) events).shared.directory :=
  Calls.Rules.ran (directory_rules.steady (Calls.steady_start trivial) hquiet) hran

/-! ### Two runs -/

/-- A client without sessions. -/
def sampleClient : Client Unit Unit :=
  ⟨⟨⟨"alice", 1⟩, .replicate 32 0, none, ∅⟩, ⟨"alice", 1⟩, [], .openTacenta, 0, none, .fresh, 0⟩

/-- A client on a connection on which nothing is in flight. -/
def sampleSite : Site Unit Unit := ⟨sampleClient, .fresh [], none⟩

/-- Writes take everything, a read returns the given bytes and sessions are established. -/
def sampleChoice (chunk : Bytes) : (i : Op Unit Unit) → i.Answer
  | .client => sampleClient
  | .update _ => ()
  | .signChallenge _ => []
  | .establishSessionFor _ _ _ => .ok ()
  | .encrypt _ _ => .error ""
  | .bumpRollbackCounter => .error (.backend "")
  | .challenge => []
  | .write data => .ok data.length
  | .flush => .ok ()
  | .read _ => .ok chunk
  | .request _ => .error (.other 0)
  | .dialDirectory => .error (.other 0)
  | .dialRelay => .error (.other 0)
  | .adopt => ()
  | .sleep => ()

/-- The directory's answer to a lookup of a device with identity 1 and bundle 2. -/
def sampleFound : Bytes := [5, 0, 0, 0, 1, 1, 0, 0, 0, 1, 2]

/-- A send that looks its recipient up. -/
def quietEvents :
    List (Calls.Event Unit DirectoryCall ((i : Op Unit Unit) → i.Answer) ServerAct) :=
  [.call () (.send ⟨"bob", 1⟩ []), .advance () (sampleChoice []), .advance () (sampleChoice []),
    .advance () (sampleChoice []), .act (.serve sampleFound),
    .advance () (sampleChoice [0, 0, 0, 11]), .advance () (sampleChoice sampleFound)]

theorem quietEvents_openedQuietly :
    (directoryCalls Unit Unit).step.Along OpenedQuietly (.start sampleSite) quietEvents :=
  ⟨fun _ _ => ⟨rfl, rfl⟩, trivial, trivial, trivial, trivial, trivial, trivial, trivial⟩

theorem established_as_answered_sample :
    peerAddress ⟨"bob", 1⟩ = .ok ⟨"bob", 1⟩ ∧ FoundBy 0 ⟨"bob", 1⟩ [1] [2]
      ((directoryCalls Unit Unit).step.run (.start sampleSite) quietEvents).shared.directory :=
  established_as_answered sampleSite quietEvents quietEvents_openedQuietly
    (.advance () (sampleChoice [])) 0 ⟨"bob", 1⟩ [] ⟨"bob", 1⟩ [2] [1] (.ok ()) rfl

/-- A send to one device is dropped after it wrote its lookup, which is answered, and a send to
another device follows. -/
def droppedEvents :
    List (Calls.Event Unit DirectoryCall ((i : Op Unit Unit) → i.Answer) ServerAct) :=
  [.call () (.send ⟨"bob", 1⟩ []), .advance () (sampleChoice []), .advance () (sampleChoice []),
    .drop (), .act (.serve sampleFound), .call () (.send ⟨"carol", 1⟩ []),
    .advance () (sampleChoice []), .advance () (sampleChoice []), .advance () (sampleChoice []),
    .advance () (sampleChoice [0, 0, 0, 11]), .advance () (sampleChoice sampleFound)]

/-- The site after the dropped send and the lookup of the other one. -/
def misledSite : Site Unit Unit :=
  ((directoryCalls Unit Unit).step.run (.start sampleSite) droppedEvents).shared

theorem answered_misledSite : misledSite.directory.answered =
    [(tagged 0 [2, 0, 0, 0, 3, 98, 111, 98, 0, 0, 0, 1], sampleFound)] := rfl

/-- The second send establishes a session for its recipient with the keys of the first one's. -/
theorem dropped_lookup_misleads :
    ((directoryCalls Unit Unit).step
      ((directoryCalls Unit Unit).step.run (.start sampleSite) droppedEvents)
        (.advance () (sampleChoice []))).2 = some (.ran 1 (.send ⟨"carol", 1⟩ [])
          (.establishSessionFor ⟨"carol", 1⟩ [2] [1]) (.ok ())) ∧
      FoundBy 0 ⟨"bob", 1⟩ [1] [2] misledSite.directory ∧
        ¬FoundBy 1 ⟨"carol", 1⟩ [1] [2] misledSite.directory := by
  refine ⟨rfl, ⟨_, sampleFound, rfl, ?_, rfl⟩, ?_⟩
  · rw [Answered, answered_misledSite]
    exact List.mem_singleton.mpr rfl
  · rintro ⟨request, body, -, hmem, -⟩
    rw [Answered, answered_misledSite, List.mem_singleton, Prod.mk.injEq] at hmem
    cases request with
    | nil => cases hmem.1
    | cons byte rest =>
      have hfirst := (List.cons.inj hmem.1).1
      cases (Prod.mk.inj hfirst).1

end Tacenta.Connected
