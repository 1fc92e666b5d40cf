/-
The write path of one connection.

`send` puts a buffer behind the queue and `do_write` hands the front buffer to the socket,
one asynchronous write at a time; a completion takes the accepted bytes off the front and
starts the next write.  A `Writer` is a connection with the socket's side of this: the
writes that are outstanding, each with the bytes it was asked to take, and the bytes
taken.  Sends, completions of any length, errors and closing come in any order, and each is
for the connection one of the operations the server's handlers are made of.

`fifo` says that this is a queue of bytes, with one write outstanding exactly while there is
something to write.
-/
import CloudMeeting.Server.Connections

namespace CloudMeeting.Server

namespace Connection

/-- The bytes still to be written. -/
def queued (conn : Connection) : Bytes := (conn.writeQueue.map Buffer.readable).flatten

/-- What `do_write` asks of the socket, if it asks at all. -/
def request (conn : Connection) : List Bytes :=
  if conn.writeInProgress ∨ conn.writeQueue = [] ∨ conn.closed then []
  else (conn.writeQueue.head?.map Buffer.readable).toList

end Connection

structure Writer where
  conn : Connection := {}
  /-- The writes that have not completed, with the bytes each has been asked to take. -/
  pending : List Bytes := []
  /-- The bytes the socket has accepted. -/
  accepted : Bytes := []

inductive WriteEvent where
  | send (data : Bytes)
  /-- A pending write completes, having taken `length` bytes. -/
  | complete (write length : Nat)
  /-- A pending write fails. -/
  | fail (write : Nat)
  | close

namespace Writer

def doWrite (w : Writer) : Writer :=
  { w with conn := w.conn.doWrite, pending := w.pending ++ w.conn.request }

def close (w : Writer) : Writer :=
  { w with conn := if w.conn.closed then w.conn else w.conn.markClosed }

def step (w : Writer) : WriteEvent → Option Writer
  | .send data =>
      if w.conn.closed ∨ data.length = 0 then some w
      else some (doWrite { w with conn := w.conn.enqueue data })
  | .complete write length =>
      match w.pending[write]? with
      | none => none
      | some request =>
          if length ≤ request.length then
            let w := { w with
              conn := w.conn.taken length
              pending := w.pending.eraseIdx write
              accepted := w.accepted ++ request.take length }
            some (if w.conn.writeQueue ≠ [] then w.doWrite else w)
          else none
  | .fail write =>
      if write < w.pending.length then
        some (close { w with pending := w.pending.eraseIdx write })
      else none
  | .close => some w.close

/-- A send of the writer is a send of the connection. -/
theorem conn_send {w w' : Writer} {data : Bytes} (hstep : step w (.send data) = some w') :
    w'.conn = w.conn.send data := by
  rw [Connection.send_eq]
  simp only [step] at hstep
  split at hstep
  · rename_i hguard
    rw [Option.some.injEq] at hstep
    rw [if_pos hguard, ← hstep]
  · rename_i hguard
    rw [Option.some.injEq] at hstep
    rw [if_neg hguard, ← hstep]
    rfl

/-- A completion of the writer is a completion of the connection. -/
theorem conn_complete {w w' : Writer} {write length : Nat}
    (hstep : step w (.complete write length) = some w') : w'.conn = w.conn.writeDone length := by
  rw [Connection.writeDone_eq]
  simp only [step] at hstep
  split at hstep
  · simp at hstep
  split at hstep
  · rw [Option.some.injEq] at hstep
    rw [← hstep]
    split <;> rfl
  · simp at hstep

/-- The bytes of an event's send. -/
def sentBy : WriteEvent → Bytes
  | .send data => data
  | _ => []

/-- All that has been sent, in order. -/
def sent (es : List WriteEvent) : Bytes := (es.map sentBy).flatten

end Writer

/-! ### The queue of buffers -/

namespace Connection

variable {conn : Connection}

/-- The buffers of the queue are in order, and none is used up. -/
def Buffered (conn : Connection) : Prop :=
  ∀ b ∈ conn.writeQueue, b.WF ∧ b.readableSize ≠ 0

theorem queued_doWrite (conn : Connection) : conn.doWrite.queued = conn.queued := by
  unfold doWrite
  split <;> rfl

theorem buffered_doWrite (h : conn.Buffered) : conn.doWrite.Buffered := by
  unfold doWrite
  split <;> exact h

theorem queued_enqueue (data : Bytes) (conn : Connection) :
    (conn.enqueue data).queued = conn.queued ++ data := by
  have hwrite := (Buffer.write_spec (Buffer.new_wf data.length) data).2
  simp [enqueue, queued, hwrite]

theorem buffered_enqueue (h : conn.Buffered) {data : Bytes} (hdata : data.length ≠ 0) :
    (conn.enqueue data).Buffered := by
  obtain ⟨hwf, hreadable⟩ := Buffer.write_spec (Buffer.new_wf data.length) data
  intro b hb
  rcases List.mem_append.mp hb with hb | hb
  · exact h b hb
  · rw [List.mem_singleton.mp hb, ← Buffer.length_readable hwf, hreadable]
    exact ⟨hwf, by simpa using hdata⟩

/-- Taking bytes off the front buffer takes them off the queue. -/
theorem queued_taken {front : Buffer} {rest : List Buffer} (h : conn.Buffered)
    (hqueue : conn.writeQueue = front :: rest) {length : Nat} (hle : length ≤ front.readableSize) :
    front.readable.take length ++ (conn.taken length).queued = conn.queued := by
  have hwf : front.WF := (h front (by rw [hqueue]; exact List.mem_cons_self)).1
  have hleft : (front.moveReadPos length).readable = front.readable.drop length :=
    Buffer.readable_moveReadPos hwf hle
  have hlen := Buffer.length_readable (Buffer.moveReadPos_wf hwf hle)
  simp only [taken, queued, hqueue, List.map_cons, List.flatten_cons]
  split
  · rename_i hused
    -- the front buffer is used up, so that all of it has been taken
    have hnil : front.readable.drop length = [] := by
      rw [← hleft, ← List.length_eq_zero_iff, hlen, hused]
    rw [← List.append_nil (front.readable.take length), ← hnil, List.take_append_drop]
  · rw [List.map_cons, List.flatten_cons, hleft, ← List.append_assoc, List.take_append_drop]

theorem buffered_taken (h : conn.Buffered) {front : Buffer} {rest : List Buffer}
    (hqueue : conn.writeQueue = front :: rest) {length : Nat} (hle : length ≤ front.readableSize) :
    (conn.taken length).Buffered := by
  have hwf : front.WF := (h front (by rw [hqueue]; exact List.mem_cons_self)).1
  have hrest : ∀ b ∈ rest, b.WF ∧ b.readableSize ≠ 0 := fun b hb =>
    h b (by rw [hqueue]; exact List.mem_cons_of_mem _ hb)
  simp only [taken, hqueue, Buffered]
  split
  · exact hrest
  · rename_i hsome
    intro b hb
    rcases List.mem_cons.mp hb with rfl | hb
    · exact ⟨Buffer.moveReadPos_wf hwf hle, hsome⟩
    · exact hrest b hb

theorem delivered_doWrite (conn : Connection) : conn.doWrite.delivered = conn.delivered := by
  unfold doWrite
  split <;> rfl

/-- What a completion takes has been delivered. -/
theorem delivered_writeDone {front : Buffer} {rest : List Buffer}
    (hqueue : conn.writeQueue = front :: rest) (length : Nat) :
    (conn.writeDone length).delivered = conn.delivered ++ front.readable.take length := by
  rw [writeDone_eq]
  have htaken : (conn.taken length).delivered = conn.delivered ++ front.readable.take length := by
    simp only [taken, hqueue]
  split
  · rw [delivered_doWrite, htaken]
  · exact htaken

/-- What the operations of the server keep up in a connection. -/
structure Orderly (conn : Connection) : Prop where
  buffered : conn.Buffered
  bytes : conn.delivered ++ conn.queued = conn.outgoing.flatten
  busy : conn.closed = false → (conn.writeInProgress = true ↔ conn.writeQueue ≠ [])

theorem Orderly.doWrite {conn : Connection} (hbuffered : conn.Buffered)
    (hbytes : conn.delivered ++ conn.queued = conn.outgoing.flatten)
    (hbusy : conn.writeInProgress = true → conn.writeQueue ≠ []) : conn.doWrite.Orderly := by
  have hbytes' : conn.doWrite.delivered ++ conn.doWrite.queued = conn.doWrite.outgoing.flatten := by
    rw [delivered_doWrite, queued_doWrite, (core_doWrite conn).2.2.2, hbytes]
  refine ⟨buffered_doWrite hbuffered, hbytes', fun hopen => ?_⟩
  rw [(core_doWrite conn).1] at hopen
  unfold Connection.doWrite
  split
  · rename_i hguard
    refine ⟨hbusy, fun hqueue => ?_⟩
    rcases hguard with hguard | hguard | hguard
    · exact hguard
    · exact absurd hguard hqueue
    · rw [hopen] at hguard
      simp at hguard
  · rename_i hguard
    rw [not_or, not_or] at hguard
    exact ⟨fun _ => hguard.2.1, fun _ => rfl⟩

theorem Op.orderly {conn conn' : Connection} (hop : conn.Op conn') (h : conn.Orderly) :
    conn'.Orderly := by
  cases hop with
  | send data =>
      rw [send_eq]
      split
      · exact h
      · rename_i hguard
        rw [not_or, Bool.not_eq_true] at hguard
        refine Orderly.doWrite (buffered_enqueue h.buffered hguard.2) ?_ fun _ => ?_
        · rw [queued_enqueue, ← List.append_assoc]
          simp only [enqueue, List.flatten_append, List.flatten_singleton]
          rw [h.bytes]
        · simp [enqueue]
  | writeDone length hbusy hlength =>
      obtain ⟨front, hfront, hle⟩ := hlength
      obtain ⟨rest, hqueue⟩ : ∃ rest, conn.writeQueue = front :: rest := by
        cases hq : conn.writeQueue with
        | nil => simp [hq] at hfront
        | cons b bs =>
            rw [hq, List.head?_cons, Option.mem_some_iff] at hfront
            exact ⟨bs, by rw [hfront]⟩
      have hbuffered := buffered_taken h.buffered hqueue hle
      have hdelivered : (conn.taken length).delivered
          = conn.delivered ++ front.readable.take length := by
        simp only [taken, hqueue]
      have hout : (conn.taken length).outgoing = conn.outgoing := by
        simp only [taken, hqueue]
      have hidle : (conn.taken length).writeInProgress = false := by
        simp only [taken, hqueue]
      have hbytes : (conn.taken length).delivered ++ (conn.taken length).queued
          = (conn.taken length).outgoing.flatten := by
        rw [hdelivered, List.append_assoc, queued_taken h.buffered hqueue hle, h.bytes, hout]
      rw [writeDone_eq]
      split
      · exact Orderly.doWrite hbuffered hbytes fun hstill => by simp [hidle] at hstill
      · rename_i hempty
        refine ⟨hbuffered, hbytes, fun _ => ⟨fun hstill => ?_, fun hmore => absurd hmore hempty⟩⟩
        simp [hidle] at hstill
  | readSome data => exact ⟨h.buffered, h.bytes, h.busy⟩
  | consume buffer => exact ⟨h.buffered, h.bytes, h.busy⟩
  | ask => exact ⟨h.buffered, h.bytes, h.busy⟩
  | markClosed hopen =>
      refine ⟨h.buffered, h.bytes, fun hstill => ?_⟩
      simp [Connection.markClosed] at hstill

end Connection

/-! ### Bytes flow through -/

/-- A write is pending exactly where one is under way, and has been asked to take the front
buffer. -/
structure Writer.Asked (w : Writer) : Prop where
  pending : w.pending = [] ∨ (w.conn.writeInProgress = true ∧
    ∃ front rest, w.conn.writeQueue = front :: rest ∧ w.pending = [front.readable])
  busy : w.conn.closed = false → w.conn.writeInProgress = true → w.pending ≠ []

namespace Writer.Asked

variable {w : Writer}

/-- A write that is under way is left alone. -/
theorem doWrite_busy (h : w.conn.writeInProgress = true) : w.doWrite = w := by
  simp [Writer.doWrite, Connection.doWrite, Connection.request, h]

/-- With nothing under way the front buffer is handed to the socket. -/
theorem doWrite_idle (hidle : w.conn.writeInProgress = false) (hnone : w.pending = []) :
    w.doWrite.Asked := by
  have hsame : w.conn.writeQueue = [] ∨ w.conn.closed = true → w.doWrite = w := by
    rintro (hqueue | hclosed)
    · simp [Writer.doWrite, Connection.doWrite, Connection.request, hqueue]
    · simp [Writer.doWrite, Connection.doWrite, Connection.request, hclosed]
  have hkept : w.Asked := ⟨Or.inl hnone, fun _ hbusy => by simp [hidle] at hbusy⟩
  cases hqueue : w.conn.writeQueue with
  | nil =>
      rw [hsame (Or.inl hqueue)]
      exact hkept
  | cons front rest =>
      cases hclosed : w.conn.closed with
      | true =>
          rw [hsame (Or.inr hclosed)]
          exact hkept
      | false =>
          have hasked : w.doWrite.pending = [front.readable] := by
            simp [Writer.doWrite, Connection.request, hidle, hqueue, hclosed, hnone]
          have hwriter : w.doWrite.conn = { w.conn with writeInProgress := true } := by
            simp [Writer.doWrite, Connection.doWrite, hidle, hqueue, hclosed]
          refine ⟨Or.inr ⟨?_, front, rest, ?_, hasked⟩, fun _ _ => ?_⟩
          · rw [hwriter]
          · rw [hwriter]
            exact hqueue
          · rw [hasked]
            simp

theorem send (h : w.Asked) (hopen : w.conn.closed = false) (data : Bytes) :
    (Writer.doWrite { w with conn := w.conn.enqueue data }).Asked := by
  cases hidle : w.conn.writeInProgress with
  | false =>
      rcases h.pending with hnone | ⟨hbusy, -⟩
      · exact doWrite_idle hidle hnone
      · rw [hidle] at hbusy
        simp at hbusy
  | true =>
      rw [doWrite_busy (w := { w with conn := w.conn.enqueue data }) hidle]
      have hsome : w.pending ≠ [] := h.busy hopen hidle
      refine ⟨?_, fun _ _ => hsome⟩
      rcases h.pending with hnone | ⟨-, front, rest, hqueue, hasked⟩
      · exact absurd hnone hsome
      · refine Or.inr ⟨hidle, front, rest ++ [(Buffer.new data.length).write data], ?_, hasked⟩
        simp [Connection.enqueue, hqueue]

/-- A write that completes was asked to take the front buffer, and was the only one. -/
theorem request_eq (h : w.Asked) {write : Nat} {request : Bytes}
    (hrequest : w.pending[write]? = some request) :
    w.conn.writeInProgress = true ∧ ∃ front rest, w.conn.writeQueue = front :: rest ∧
      request = front.readable ∧ w.pending.eraseIdx write = [] := by
  rcases h.pending with hnone | ⟨hbusy, front, rest, hqueue, hasked⟩
  · rw [hnone] at hrequest
    simp at hrequest
  · rw [hasked] at hrequest ⊢
    cases write with
    | zero =>
        have hfront : front.readable = request := by simpa using hrequest
        exact ⟨hbusy, front, rest, hqueue, hfront.symm, rfl⟩
    | succ write => simp at hrequest

theorem complete (h : w.Asked) {write : Nat} (length : Nat) {request : Bytes}
    (hrequest : w.pending[write]? = some request) :
    let after : Writer := { w with
      conn := w.conn.taken length
      pending := w.pending.eraseIdx write
      accepted := w.accepted ++ request.take length }
    (if after.conn.writeQueue ≠ [] then after.doWrite else after).Asked := by
  obtain ⟨-, front, rest, hqueue, -, hnone⟩ := h.request_eq hrequest
  have hidle : (w.conn.taken length).writeInProgress = false := by
    simp only [Connection.taken, hqueue]
  intro after
  split
  · exact doWrite_idle hidle hnone
  · exact ⟨Or.inl hnone, fun _ hbusy => absurd (hidle.symm.trans hbusy) (by simp)⟩

/-- A connection that is closed is asked for no more. -/
theorem close {pending : List Bytes} (h : { w with pending := pending }.Asked ∨ pending = []) :
    (Writer.close { w with pending := pending }).Asked := by
  have hshut : (Writer.close { w with pending := pending }).conn.closed = true := by
    unfold Writer.close
    cases hclosed : w.conn.closed <;> simp [hclosed, Connection.markClosed]
  have hkept : (Writer.close { w with pending := pending }).conn.writeInProgress
        = w.conn.writeInProgress ∧
      (Writer.close { w with pending := pending }).conn.writeQueue = w.conn.writeQueue := by
    unfold Writer.close
    cases hclosed : w.conn.closed <;> simp [Connection.markClosed]
  refine ⟨?_, fun hopen => by simp [hshut] at hopen⟩
  rcases h with h | hnone
  · rw [hkept.1, hkept.2]
    exact h.pending
  · exact Or.inl hnone

end Writer.Asked

/-- The connection is as the server keeps it, and the socket has taken what it has delivered. -/
structure Flows (w : Writer) (out : Bytes) : Prop where
  orderly : w.conn.Orderly
  asked : w.Asked
  accepted : w.accepted = w.conn.delivered
  sent : w.conn.closed = false → w.conn.outgoing.flatten = out

namespace Flows

variable {w w' : Writer} {out : Bytes}

theorem init : Flows {} [] where
  orderly := ⟨fun b hb => absurd hb List.not_mem_nil, rfl, fun _ => by simp⟩
  asked := ⟨Or.inl rfl, fun _ h => by simp at h⟩
  accepted := rfl
  sent _ := rfl

theorem send (h : Flows w out) {data : Bytes} (hstep : w.step (.send data) = some w') :
    Flows w' (out ++ data) := by
  have hconn := Writer.conn_send hstep
  have horderly : w'.conn.Orderly := hconn ▸ (Connection.Op.send data).orderly h.orderly
  simp only [Writer.step] at hstep
  split at hstep
  · rename_i hguard
    obtain rfl := Option.some.inj hstep
    refine ⟨horderly, h.asked, h.accepted, fun hopen => ?_⟩
    have hdata : data = [] := by simpa [hopen] using hguard
    rw [hdata, List.append_nil]
    exact h.sent hopen
  · rename_i hguard
    rw [not_or, Bool.not_eq_true] at hguard
    obtain rfl := Option.some.inj hstep
    have hkept := core_doWrite (w.conn.enqueue data)
    refine ⟨horderly, h.asked.send hguard.1 data, ?_, fun _ => ?_⟩
    · exact h.accepted.trans (Connection.delivered_doWrite (w.conn.enqueue data)).symm
    · calc (w.conn.enqueue data).doWrite.outgoing.flatten
          = (w.conn.outgoing ++ [data]).flatten := congrArg List.flatten hkept.2.2.2
        _ = out ++ data := by rw [List.flatten_append, List.flatten_singleton, h.sent hguard.1]

theorem complete (h : Flows w out) {write length : Nat}
    (hstep : w.step (.complete write length) = some w') : Flows w' out := by
  have hconn := Writer.conn_complete hstep
  simp only [Writer.step] at hstep
  split at hstep
  · simp at hstep
  rename_i request hrequest
  obtain ⟨hbusy, front, rest, hqueue, rfl, -⟩ := h.asked.request_eq hrequest
  obtain ⟨hle, hstep⟩ := Option.ite_none_right_eq_some.mp hstep
  have hwf : front.WF := (h.orderly.buffered front (by rw [hqueue]; exact List.mem_cons_self)).1
  rw [Buffer.length_readable hwf] at hle
  have hop : w.conn.Op (w.conn.writeDone length) :=
    .writeDone length hbusy ⟨front, by simp [hqueue], hle⟩
  have hasked := h.asked.complete length hrequest
  obtain rfl := Option.some.inj hstep
  refine ⟨hconn ▸ hop.orderly h.orderly, hasked, ?_, ?_⟩
  · rw [hconn, Connection.delivered_writeDone hqueue, ← h.accepted]
    split <;> rfl
  · obtain ⟨hclosed, -, -, houtgoing⟩ := writeDone_kept length w.conn
    rw [hconn, hclosed, houtgoing]
    exact h.sent

theorem close (h : Flows w out) {pending : List Bytes}
    (hasked : { w with pending := pending }.Asked ∨ pending = []) :
    Flows (Writer.close { w with pending := pending }) out := by
  have hasked' := Writer.Asked.close hasked
  unfold Writer.close at hasked' ⊢
  cases hclosed : w.conn.closed with
  | true => exact ⟨h.orderly, by simpa [hclosed] using hasked', h.accepted, h.sent⟩
  | false =>
      have hshut := (Connection.Op.markClosed hclosed).orderly h.orderly
      refine ⟨hshut, by simpa [hclosed] using hasked', h.accepted, fun hopen => ?_⟩
      simp [Connection.markClosed] at hopen

/-- What one event preserves. -/
theorem step (h : Flows w out) {e : WriteEvent} (hstep : w.step e = some w') :
    Flows w' (out ++ Writer.sentBy e) := by
  cases e with
  | send data => exact h.send hstep
  | complete write length =>
      show Flows w' (out ++ [])
      rw [List.append_nil]
      exact h.complete hstep
  | fail write =>
      show Flows w' (out ++ [])
      rw [List.append_nil]
      obtain ⟨hlt, hstep⟩ := Option.ite_none_right_eq_some.mp hstep
      obtain rfl := Option.some.inj hstep
      obtain ⟨-, front, rest, -, -, hnone⟩ := h.asked.request_eq (List.getElem?_eq_getElem hlt)
      exact h.close (Or.inr hnone)
  | close =>
      show Flows w' (out ++ [])
      rw [List.append_nil]
      obtain rfl := Option.some.inj hstep
      exact h.close (Or.inl h.asked)

theorem run (h : Flows w out) {es : List WriteEvent} (hrun : Run.run Writer.step w es = some w') :
    Flows w' (out ++ Writer.sent es) := by
  induction es generalizing w out with
  | nil =>
      rw [Run.run_nil, Option.some.injEq] at hrun
      subst hrun
      rw [Writer.sent, List.map_nil, List.flatten_nil, List.append_nil]
      exact h
  | cons e es ih =>
      obtain ⟨mid, hstep, hrest⟩ := Run.run_cons_some hrun
      have hmid := ih (h.step hstep) hrest
      rw [List.append_assoc] at hmid
      exact hmid

end Flows

/-- **The write path is a lossless queue of bytes.** -/
theorem fifo {es : List WriteEvent} {w : Writer} (hrun : Run.run Writer.step {} es = some w) :
    w.pending.length ≤ 1 ∧
      (w.conn.isOpen = true → w.conn.writeQueue ≠ [] → w.pending.length = 1) ∧
      (w.conn.isOpen = true → w.accepted ++ w.conn.queued = Writer.sent es) := by
  have h := Flows.init.run hrun
  rw [List.nil_append] at h
  have hclosed : w.conn.isOpen = true → w.conn.closed = false := by
    intro hopen
    simpa [Connection.isOpen] using hopen
  refine ⟨?_, fun hopen hqueue => ?_, fun hopen => ?_⟩
  · rcases h.asked.pending with hnone | ⟨-, front, rest, -, hasked⟩
    · rw [hnone]
      exact Nat.zero_le 1
    · rw [hasked]
      exact Nat.le_refl 1
  · have hbusy := (h.orderly.busy (hclosed hopen)).mpr hqueue
    have hsome := h.asked.busy (hclosed hopen) hbusy
    rcases h.asked.pending with hnone | ⟨-, front, rest, -, hasked⟩
    · exact absurd hnone hsome
    · rw [hasked]
      rfl
  · rw [h.accepted, h.orderly.bytes, h.sent (hclosed hopen)]

/-- Two frames are sent; the socket takes two bytes, none, and one more; a third is sent. -/
def sampleWrites : List WriteEvent :=
  [.send [36, 1, 35], .send [36, 35], .complete 0 2, .complete 0 0, .complete 0 1, .send [7]]

def afterWrites (es : List WriteEvent) : Writer := (Run.run Writer.step {} es).getD {}

theorem fifo_sampleWrites :
    (afterWrites sampleWrites).pending.length ≤ 1 ∧
      ((afterWrites sampleWrites).conn.isOpen = true →
        (afterWrites sampleWrites).conn.writeQueue ≠ [] →
        (afterWrites sampleWrites).pending.length = 1) ∧
      ((afterWrites sampleWrites).conn.isOpen = true →
        (afterWrites sampleWrites).accepted ++ (afterWrites sampleWrites).conn.queued
          = Writer.sent sampleWrites) :=
  fifo (show Run.run Writer.step {} sampleWrites = some (afterWrites sampleWrites) from rfl)

end CloudMeeting.Server
