/-
What a connection costs the server.

The read buffer of a connection starts with `InitBufferSize` bytes and is never made
smaller.  It grows only when the bytes of an unfinished frame and the chunk behind them do
not fit, and then to the double or to what is needed.  How long an unfinished frame is
depends on nothing but the length its header announces, and nothing checks that length: so
`storage` bounds the buffer by what the client has announced, and `storage_tight` says that
no other bound holds, short of the four gigabytes a length field can say.
-/
import CloudMeeting.Server.Connections
import Mathlib.Data.List.Infix

namespace CloudMeeting.Server

open Wire

/-! ### Growing -/

namespace Buffer

/-- A buffer grows only where the unread bytes and the new ones do not fit. -/
theorem size_expandIfNeed {b : Buffer} (h : b.WF) (n : Nat) :
    (b.expandIfNeed n).size
      = if b.readableSize + n ≤ b.size then b.size else max (2 * b.size) (b.readableSize + n) := by
  have horder := h.order
  have hinside := h.inside
  have hlength : b.size = b.buffer.length := rfl
  have hsize : b.normalize.size = b.size := length_normalize h
  have hpos := writePos_normalize h
  have hroom : b.writableSize = b.size - b.writePos := h.writableSize_eq
  have hroom' : b.normalize.writableSize = b.size - b.readableSize := by
    rw [← hsize, ← hpos]
    exact (normalize_wf h).writableSize_eq
  have hunread := h.readableSize_eq
  unfold expandIfNeed
  split
  · simp only []
    split
    · -- what is asked for does not fit, not even with the unread bytes at the front
      rw [if_neg (by omega), hpos]
      simp only [size] at hsize
      simp only [size, resize, List.length_append, List.length_take, List.length_replicate, hsize]
      omega
    · rw [if_pos (by omega), hsize]
  · rw [if_pos (by omega)]

theorem size_write {b : Buffer} (h : b.WF) (data : Bytes) :
    (b.write data).size = if b.readableSize + data.length ≤ b.size then b.size
      else max (2 * b.size) (b.readableSize + data.length) := by
  have horder := h.order
  have hinside := h.inside
  unfold write
  split
  · rename_i hempty
    rw [hempty, if_pos]
    rw [h.readableSize_eq, size]
    omega
  · have hwf := expandIfNeed_wf h data.length
    obtain ⟨-, hsize, -⟩ := copy_spec hwf (le_writableSize_expandIfNeed h data.length)
    exact hsize.trans (size_expandIfNeed h data.length)

/-- What is unread is held. -/
theorem readable_le_size {b : Buffer} (h : b.WF) : b.readable.length ≤ b.size := by
  have hinside := h.inside
  rw [length_readable h, h.readableSize_eq, size]
  omega

end Buffer

variable {cfg : ServerConfig} {env : Env} {s s' : State} {es : List Event} {c : ConnId}

/-! ### Only reading makes a buffer grow -/

variable (env) in
/-- The read loop takes packets off the front and leaves the storage alone. -/
theorem readLoop_size (d : ConnId) :
    ∀ (fuel : Nat) (s : State) (last : Packet), Inv cfg s.core →
      ∀ c, ((readLoop cfg env fuel s d last).conn c).readBuffer.size
        = (s.conn c).readBuffer.size := by
  intro fuel
  induction fuel with
  | zero => exact fun s _ _ c => rfl
  | succ fuel ih =>
      intro s last hinv c
      by_cases hopen : s.core.closed d = false
      · cases hnext : Codec.next (s.conn d).readBuffer.readable with
        | wait => rw [readLoop_wait hinv hopen hnext]
        | reject =>
            have hacts := (malformed_acts env hinv hopen hnext).1
            rw [readLoop_reject hinv hopen hnext]
            exact congrArg Buffer.size (congrFun hacts.beside.readBuffer c)
        | take p n =>
            obtain ⟨hmoves, hreads, hbuffer⟩ := take_moves env hinv hopen hnext
            rw [readLoop_take hinv hopen hnext, ih _ p (hinv.moves hmoves) c]
            by_cases hc : c = d
            · subst hc
              rw [hbuffer]
              rfl
            · exact congrArg Buffer.size (hreads.others c hc)
      · rw [readLoop_closed hopen]

/-- The buffer of `c` once an event has brought in what it brings in. -/
def Event.filled (c : ConnId) (e : Event) (buffer : Buffer) : Buffer :=
  match e.chunkFor c with
  | some data => buffer.write data
  | none => buffer

theorem step_size (h : Reachable cfg env s) {e : Event} (hstep : step cfg env s e = some s')
    (c : ConnId) :
    (s'.conn c).readBuffer.size = (e.filled c (s.conn c).readBuffer).size := by
  have hinv := h.inv
  cases e with
  | accept =>
      simp only [step, Option.some.injEq] at hstep
      subst hstep
      simp only [Event.filled, Event.chunkFor, Function.update_apply]
      split
      · rename_i hc
        subst hc
        -- its buffer was the one it starts with already
        have hborn := (h.confers.unborn fun hlt => Nat.lt_irrefl _ hlt.2).2.2
        exact congrArg Buffer.size hborn.symm
      · rfl
  | receive d data =>
      simp only [step] at hstep
      split at hstep
      · rename_i hguard
        rw [Option.some.injEq] at hstep
        subst hstep
        let read := s.updateConn d (Connection.readSome data)
        have hcore : read.core = _ := core_readSome d data
        have hmove : Move cfg env s.core read.core := by
          rw [hcore]
          exact .receive d data hguard.1
        have hread : Inv cfg read.core := hinv.move hmove
        have hsize : ((onConnectionRead cfg env read d).conn c).readBuffer.size
            = (read.conn c).readBuffer.size :=
          readLoop_size env d ((read.conn d).readBuffer.readableSize + 1) read {} hread c
        rw [hsize]
        simp only [read, State.updateConn, Function.update_apply, Event.filled, Event.chunkFor]
        by_cases hc : c = d
        · subst hc
          rw [if_pos rfl, if_pos rfl]
          rfl
        · rw [if_neg hc, if_neg (Ne.symm hc)]
      · simp at hstep
  | readError d =>
      simp only [step] at hstep
      split at hstep
      · rw [Option.some.injEq] at hstep
        subst hstep
        exact congrArg Buffer.size (congrFun (close_acts env hinv d).beside.readBuffer c)
      · simp at hstep
  | writeDone d length =>
      simp only [step] at hstep
      split at hstep
      · rw [Option.some.injEq] at hstep
        subst hstep
        exact congrArg Buffer.size (congrFun (congrArg Core.readBuffer (core_writeDone d length)) c)
      · simp at hstep
  | writeError d =>
      simp only [step] at hstep
      split at hstep
      · rw [Option.some.injEq] at hstep
        subst hstep
        exact congrArg Buffer.size (congrFun (close_acts env hinv d).beside.readBuffer c)
      · simp at hstep

/-- Nothing reopens a connection. -/
theorem Connection.Op.closed {conn conn' : Connection} (h : conn.Op conn')
    (hclosed : conn.closed = true) : conn'.closed = true := by
  cases h with
  | send data => simp [Connection.send, hclosed]
  | writeDone length _ _ =>
      rw [Connection.writeDone_eq]
      have htaken : (conn.taken length).closed = conn.closed := by
        unfold Connection.taken
        split <;> rfl
      split
      · exact (core_doWrite _).1.trans (htaken.trans hclosed)
      · exact htaken.trans hclosed
  | readSome data => exact hclosed
  | consume buffer => exact hclosed
  | ask => exact hclosed
  | markClosed _ => rfl

/-- An event after which `c` is open has found it open, or accepts it. -/
theorem open_before {e : Event} (hstep : step cfg env s e = some s') (hopen : s'.isOpen c = true) :
    s.isOpen c = true ∨ e = .accept ∧ c = s.nextConnId := by
  cases hwas : s.isOpen c with
  | true => exact Or.inl rfl
  | false =>
      right
      have hclosed : (s.conn c).closed = true := closed_of_not_isOpen.mp hwas
      have hstill : (s'.conn c).closed = false := closed_of_isOpen.mp hopen
      rcases step_touched hstep with htouched | ⟨rfl, hconn⟩
      · have hshut : (s'.conn c).closed = true := by
          have hops := htouched c
          generalize s'.conn c = conn at hops
          induction hops with
          | refl => exact hclosed
          | tail _ hlast ih => exact hlast.closed ih
        rw [hshut] at hstill
        simp at hstill
      · refine ⟨rfl, ?_⟩
        by_contra hne
        rw [hconn, Function.update_of_ne hne, hclosed] at hstill
        simp at hstill

/-! ### What a client announces -/

/-- The length in the header of an unfinished frame, once the header is there. -/
def Ending.announced : Ending → Option Nat
  | .incomplete rest => if rest.length < headerSize then none else some (lengthOf rest).toNat
  | .malformed => none

/-- Somewhere in the stream stands, where a frame begins, a header that announces `size` bytes. -/
def Announces (bs : Bytes) (size : Nat) : Prop :=
  ∃ front ∈ bs.inits, (parse front).2.announced = some size

instance (bs : Bytes) (size : Nat) : Decidable (Announces bs size) :=
  inferInstanceAs (Decidable (∃ front ∈ bs.inits, _ = _))

theorem Announces.mono {bs bs' : Bytes} {size : Nat} (h : Announces bs size) (hle : bs <+: bs') :
    Announces bs' size := by
  obtain ⟨front, hfront, hsize⟩ := h
  exact ⟨front, (List.mem_inits _ _).mpr (((List.mem_inits _ _).mp hfront).trans hle), hsize⟩

/-- An unfinished frame is no longer than its header, or than its header says. -/
theorem length_of_wait {bs : Bytes} (h : Codec.next bs = .wait) :
    bs.length < headerSize ∨
      headerSize ≤ bs.length ∧ bs.length ≤ headerSize + (lengthOf bs).toNat := by
  unfold Codec.next at h
  split at h
  · rename_i hshort
    exact Or.inl hshort
  · rename_i hlong
    split at h
    · simp at h
    split at h
    · rename_i hpart
      exact Or.inr ⟨by omega, by omega⟩
    split at h <;> simp at h

/-- What an open connection holds back is announced. -/
theorem unread_le (hrun : Run.run (step cfg env) {} es = some s) (hopen : s.isOpen c = true)
    {most : Nat} (hmost : ∀ size, Announces (stream c es) size → size ≤ most) :
    (s.conn c).readBuffer.readableSize ≤ headerSize + most := by
  have hreach : Reachable cfg env s := ⟨es, hrun⟩
  have hwait : Codec.next (s.conn c).readBuffer.readable = .wait :=
    hreach.moves.2 c (closed_of_isOpen.mp hopen)
  have hlen := Buffer.length_readable (hreach.inv.buffers c)
  have hbuffer : s.core.readBuffer c = (s.conn c).readBuffer := rfl
  rw [hbuffer] at hlen
  rcases length_of_wait hwait with hshort | ⟨hheader, hle⟩
  · omega
  · cases pipeline_awaiting hrun hopen with
    | awaiting _ hparse =>
        have hsize : (lengthOf (s.conn c).readBuffer.readable).toNat ≤ most := by
          refine hmost _ ⟨stream c es, (List.mem_inits _ _).mpr List.prefix_rfl, ?_⟩
          rw [hparse]
          exact if_neg (Nat.not_lt.mpr hheader)
        omega
    | malformed hclosed _ => simp [hopen] at hclosed
    | closedBy hclosed => simp [hopen] at hclosed
    | cutOff hclosed => simp [hopen] at hclosed
    | unborn hnot _ _ => exact absurd (hreach.inv.born (closed_of_isOpen.mp hopen)) hnot

/-! ### Bounds -/

/-- **A read buffer is bounded by what its client announces**: in every run, while a connection is
open whose reads bring in at most `chunk` bytes and whose headers announce at most `most`, its
buffer is as it was made, or less than double of a longest unfinished frame and a chunk. -/
theorem storage (hrun : Run.run (step cfg env) {} es = some s) (hopen : s.isOpen c = true)
    {chunk most : Nat} (hchunk : ∀ data, .receive c data ∈ es → data.length ≤ chunk)
    (hmost : ∀ size, Announces (stream c es) size → size ≤ most) :
    initBufferSize ≤ (s.conn c).readBuffer.size ∧
      ((s.conn c).readBuffer.size = initBufferSize ∨
        initBufferSize < headerSize + most + chunk ∧
          (s.conn c).readBuffer.size < 2 * (headerSize + most + chunk)) := by
  induction es using List.reverseRecOn generalizing s with
  | nil =>
      rw [Run.run_nil, Option.some.injEq] at hrun
      subst hrun
      simp [State.isOpen, Connection.isOpen] at hopen
  | append_singleton es e ih =>
      have hsplit := hrun
      rw [Run.run_append, Option.bind_eq_some_iff] at hsplit
      obtain ⟨t, ht, hlast⟩ := hsplit
      obtain ⟨t', hstep, hnil⟩ := Run.run_cons_some hlast
      rw [Run.run_nil, Option.some.injEq] at hnil
      subst hnil
      have hreach : Reachable cfg env t := ⟨es, ht⟩
      have hfront : stream c es <+: stream c (es ++ [e]) := by
        rw [stream_snoc]
        exact List.prefix_append _ _
      have hmost' : ∀ size, Announces (stream c es) size → size ≤ most :=
        fun size h => hmost size (h.mono hfront)
      have hchunk' : ∀ data, .receive c data ∈ es → data.length ≤ chunk :=
        fun data h => hchunk data (List.mem_append_left _ h)
      rw [step_size hreach hstep]
      rcases open_before hstep hopen with hwas | ⟨rfl, rfl⟩
      · have hheld := ih ht hwas hchunk' hmost'
        unfold Event.filled
        split
        · rename_i data hdata
          have he : e = .receive c data := by
            cases e with
            | receive d data' =>
                simp only [Event.chunkFor, Option.ite_none_right_eq_some, Option.some.injEq]
                  at hdata
                rw [hdata.1, hdata.2]
            | _ => simp [Event.chunkFor] at hdata
          have hlen : data.length ≤ chunk :=
            hchunk data (he ▸ List.mem_append_right _ (List.mem_singleton_self _))
          have hunread := unread_le ht hwas hmost'
          have hwf : (t.conn c).readBuffer.WF := hreach.inv.buffers c
          have hheader : 0 < headerSize := by decide
          rw [Buffer.size_write hwf]
          split
          · exact hheld
          · omega
        · exact hheld
      · have hborn := (hreach.confers.unborn fun hlt => Nat.lt_irrefl _ hlt.2).2.2
        have hsize : (t.conn t.nextConnId).readBuffer.size = initBufferSize := by
          refine (congrArg Buffer.size hborn).trans ?_
          simp [Buffer.size, Buffer.new]
        exact ⟨Nat.le_of_eq hsize.symm, Or.inl hsize⟩

/-- A frame of 4200 bytes is announced, and begun in two reads. -/
def sampleBegun : List Event :=
  [.accept, .receive 1 (header 4 0 4200 ++ [1, 2, 3]), .receive 1 [4, 5, 6, 7]]

theorem storage_sampleBegun :
    (stateAfter sampleBegun).isOpen 1 = true ∧ Announces (stream 1 sampleBegun) 4200 ∧
      initBufferSize ≤ ((stateAfter sampleBegun).conn 1).readBuffer.size ∧
      (((stateAfter sampleBegun).conn 1).readBuffer.size = initBufferSize ∨
        initBufferSize < headerSize + 4200 + 14 ∧
          ((stateAfter sampleBegun).conn 1).readBuffer.size < 2 * (headerSize + 4200 + 14)) := by
  refine ⟨by decide +kernel, by decide +kernel,
    storage (run_stateAfter (by decide +kernel)) (by decide +kernel) ?_ ?_⟩
  · intro data hdata
    simp only [sampleBegun, List.mem_cons, reduceCtorEq, Event.receive.injEq, true_and,
      List.not_mem_nil, or_false, false_or] at hdata
    rcases hdata with rfl | rfl <;> decide
  · intro size hsize
    have hall : ∀ front ∈ (stream 1 sampleBegun).inits,
        ∀ size ∈ (parse front).2.announced, size ≤ 4200 := by decide +kernel
    obtain ⟨front, hfront, hannounced⟩ := hsize
    exact hall front hfront size hannounced

/-- The beginning of a frame is never decided on. -/
theorem next_begun {type : UInt16} {ip size : UInt32} {bs more : Bytes}
    (hbs : bs <+: header type ip size ++ more) (hlen : bs.length ≤ headerSize + size.toNat) :
    Codec.next bs = .wait := by
  unfold Codec.next
  by_cases hshort : bs.length < headerSize
  · rw [if_pos hshort]
  · have hheader : header type ip size <+: bs := by
      refine List.prefix_of_prefix_length_le (List.prefix_append _ more) hbs ?_
      rw [length_header]
      omega
    obtain ⟨rest, rfl⟩ := hheader
    have hmagic : (header type ip size ++ rest).headD 0 = magic := rfl
    rw [if_neg hshort, hmagic, if_neg (by simp), lengthOf_header, if_pos (by omega)]

/-- A read that finishes no frame only appends. -/
theorem step_receive_wait (h : Reachable cfg env s) (hopen : s.isOpen c = true) {data : Bytes}
    (hdata : data ≠ []) (hwait : Codec.next ((s.conn c).readBuffer.readable ++ data) = .wait) :
    step cfg env s (.receive c data) = some (s.updateConn c (Connection.readSome data)) ∧
      (s.updateConn c (Connection.readSome data)).isOpen c = true ∧
      ((s.updateConn c (Connection.readSome data)).conn c).readBuffer.readable
        = (s.conn c).readBuffer.readable ++ data := by
  have hborn : s.Accepted c := h.inv.born (closed_of_isOpen.mp hopen)
  let read := s.updateConn c (Connection.readSome data)
  have hcore : read.core = _ := core_readSome c data
  have hconn : read.conn c = (s.conn c).readSome data := Function.update_self ..
  have hread : Inv cfg read.core := by
    have hmove : Move cfg env s.core read.core := by
      rw [hcore]
      exact .receive c data hborn
    exact h.inv.move hmove
  have hstill : read.isOpen c = true := by
    rw [State.isOpen, hconn]
    exact hopen
  have hreadable : (read.conn c).readBuffer.readable = (s.conn c).readBuffer.readable ++ data := by
    rw [hconn]
    exact (Buffer.write_spec (h.inv.buffers c) data).2
  have hloop : onConnectionRead cfg env read c = read := by
    refine readLoop_wait hread (closed_of_isOpen.mp hstill) ?_
    rw [hreadable]
    exact hwait
  refine ⟨?_, hstill, hreadable⟩
  rw [step, if_pos ⟨hborn, hdata⟩]
  exact congrArg some hloop

/-- **Short of the four gigabytes that a length field can say there is no other bound**: in any
state a client that owes nothing can make the server hold `n` bytes for it and keep the connection
open, by announcing a frame and sending it byte by byte. -/
theorem storage_tight (h : Reachable cfg env s) (hopen : s.isOpen c = true)
    (hempty : (s.conn c).readBuffer.readable = []) {n : Nat} (hn : n ≤ headerSize + (2 ^ 32 - 1)) :
    ∃ es s', Run.run (step cfg env) s es = some s' ∧
      (∀ e ∈ es, ∃ byte, e = .receive c [byte]) ∧
      s'.isOpen c = true ∧ n ≤ (s'.conn c).readBuffer.size := by
  let announced : Bytes := header 4 0 4294967295 ++ List.replicate (2 ^ 32 - 1) 0
  have hlength : announced.length = headerSize + (2 ^ 32 - 1) := by
    simp only [announced, List.length_append, length_header, List.length_replicate]
  have hheld : ∃ es s', Run.run (step cfg env) s es = some s' ∧
      (∀ e ∈ es, ∃ byte, e = .receive c [byte]) ∧ s'.isOpen c = true ∧
      (s'.conn c).readBuffer.readable = announced.take n := by
    induction n with
    | zero => exact ⟨[], s, rfl, by simp, hopen, hempty⟩
    | succ n ih =>
        obtain ⟨es, t, hrun, honly, hlive, hunread⟩ := ih (by omega)
        have hreach : Reachable cfg env t := h.run hrun
        have hlt : n < announced.length := by omega
        have hnext : announced.take n ++ [announced[n]] = announced.take (n + 1) :=
          List.take_append_getElem hlt
        have hwait : Codec.next ((t.conn c).readBuffer.readable ++ [announced[n]]) = .wait := by
          rw [hunread, hnext]
          refine next_begun (List.take_prefix _ _) ?_
          rw [List.length_take]
          have hsize : (4294967295 : UInt32).toNat = 2 ^ 32 - 1 := by decide
          omega
        obtain ⟨hstep, hstill, hmore⟩ := step_receive_wait hreach hlive (by simp) hwait
        refine ⟨es ++ [.receive c [announced[n]]], _, ?_, ?_, hstill, ?_⟩
        · rw [Run.run_append, hrun]
          exact (Run.run_cons ..).trans (by rw [hstep]; rfl)
        · intro e he
          rcases List.mem_append.mp he with he | he
          · exact honly e he
          · exact ⟨_, List.mem_singleton.mp he⟩
        · rw [hmore, hunread, hnext]
  obtain ⟨es, t, hrun, honly, hlive, hunread⟩ := hheld
  have hreach : Reachable cfg env t := h.run hrun
  have hwf : (t.conn c).readBuffer.WF := hreach.inv.buffers c
  refine ⟨es, t, hrun, honly, hlive, ?_⟩
  have hle := Buffer.readable_le_size hwf
  rw [hunread, List.length_take] at hle
  omega

theorem storage_tight_accepted : ∃ es s',
    Run.run (step {} sampleEnv) (stateAfter [.accept]) es = some s' ∧
      (∀ e ∈ es, ∃ byte, e = .receive 1 [byte]) ∧
      s'.isOpen 1 = true ∧ 3000000000 ≤ (s'.conn 1).readBuffer.size :=
  storage_tight ⟨[.accept], run_stateAfter (by decide +kernel)⟩ (by decide +kernel)
    (by decide +kernel) (by decide)

end CloudMeeting.Server
