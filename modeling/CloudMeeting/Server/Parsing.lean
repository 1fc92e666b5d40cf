/-
The packets handled are the packets received.

Everything a connection has received is, in order, the packets handled for it followed
by what its read buffer still holds (`Parses`).  With the framing library this settles
what the read loop makes of a stream, however it arrives: the packets handled are a
prefix of those in the stream, and all of them while the connection is open.
-/
import CloudMeeting.Server.Conferring

namespace CloudMeeting.Server

open Framing

variable {cfg : ServerConfig} {env : Env} {k : Core}

/-- The packet the record says was handled for `c`. -/
def Record.packetOf (c : ConnId) : Record → Option Packet
  | .packet d sent _ => if d = c then some sent else none
  | _ => none

/-- The packets handled for `c`, in order. -/
def handled (c : ConnId) (history : List Record) : List Packet :=
  history.filterMap (Record.packetOf c)

theorem handled_append (c : ConnId) (history more : List Record) :
    handled c (history ++ more) = handled c history ++ handled c more := by
  simp [handled]

theorem handled_of_no_packet (c : ConnId) {history : List Record}
    (h : ∀ d sent present, .packet d sent present ∉ history) : handled c history = [] := by
  rw [handled, List.filterMap_eq_nil_iff]
  intro r hr
  cases r with
  | packet d sent present => exact absurd hr (h d sent present)
  | _ => rfl

/-- Streams, handled packets and read buffers agree. -/
structure Parses (k : Core) : Prop where
  cuts : ∀ c, Cuts Codec.cutter (k.received c) (handled c k.history) (k.readBuffer c).readable
  rejected : ∀ {c}, .malformed c ∈ k.history → Codec.next (k.readBuffer c).readable = .reject

theorem Parses.init : Parses ({} : State).core where
  cuts _ := .done _
  rejected h := absurd h (by simp [State.core])

namespace Parses

theorem act (h : Parses k) {k' : Core} (ha : Act cfg env k k') : Parses k' := by
  have hbeside := ha.beside
  obtain ⟨more, hmore, hno⟩ := hbeside.history
  refine ⟨?_, ?_⟩
  · intro c
    rw [hmore, handled_append, handled_of_no_packet c hno, List.append_nil, hbeside.received,
      hbeside.readBuffer]
    exact h.cuts c
  · intro c hc
    have hold : .malformed c ∈ k.history ∨ Codec.next (k.readBuffer c).readable = .reject := by
      cases ha with
      | malformed d _ hnext =>
          rcases List.mem_append.mp hc with hc | hc
          · exact Or.inl hc
          · obtain rfl : c = d := by simpa using hc
            exact Or.inr hnext
      | alone d _ _ => exact Or.inl hc
      | _ => exact Or.inl (by simpa using hc)
    rw [hbeside.readBuffer]
    rcases hold with hold | hnext
    · exact h.rejected hold
    · exact hnext

theorem move (h : Parses k) (hinv : Inv cfg k) (hconf : Confers k) {k' : Core}
    (hm : Move cfg env k k') : Parses k' := by
  cases hm with
  | act ha => exact h.act ha
  | accept =>
      -- nothing had been received from the connection before it was accepted
      obtain ⟨-, hreceived, hread⟩ := hconf.unborn fun hlt => Nat.lt_irrefl _ hlt.2
      have h1 : Function.update k.received k.nextConnId [] = k.received := by
        rw [← hreceived, Function.update_eq_self]
      have h2 : Function.update k.readBuffer k.nextConnId (Buffer.new initBufferSize)
          = k.readBuffer := by
        rw [← hread, Function.update_eq_self]
      simp only [h1, h2]
      exact ⟨h.cuts, h.rejected⟩
  | receive c data _ =>
      have hwrite := (Buffer.write_spec (hinv.buffers c) data).2
      refine ⟨?_, ?_⟩
      · intro d
        simp only [Function.update_apply]
        split
        · rename_i hd
          rw [hwrite, hd]
          exact (h.cuts c).append data
        · exact h.cuts d
      · intro d hd
        have hreject := h.rejected hd
        simp only [Function.update_apply]
        split
        · rename_i hdc
          rw [hdc] at hreject
          rw [hwrite, Codec.next_append (by rw [hreject]; simp), hreject]
        · exact hreject
  | packet c sent n _ hnext =>
      refine ⟨?_, ?_⟩
      · intro d
        simp only [Core.log_readBuffer, Core.log_history, Core.log_received, handled_append,
          Function.update_apply]
        split
        · rename_i hd
          subst hd
          rw [Codec.readable_taken (hinv.buffers _) hnext]
          simpa [handled, Record.packetOf] using (h.cuts d).snoc hnext
        · rename_i hd
          have hd' : ¬ c = d := fun heq => hd heq.symm
          simpa [handled, Record.packetOf, hd'] using h.cuts d
      · intro d hd
        have hreject := h.rejected (c := d) (by simpa using hd)
        have hne : d ≠ c := fun heq => by
          rw [heq, hnext] at hreject
          simp at hreject
        simp only [Core.log_readBuffer, Function.update_apply, if_neg hne]
        exact hreject

theorem moves {k' : Core} (h : Parses k) (hinv : Inv cfg k) (hconf : Confers k)
    (hm : Moves cfg env k k') : Parses k' := by
  induction hm with
  | refl => exact h
  | tail hms hmove ih => exact ih.move (hinv.moves hms) (hconf.moves hinv hms) hmove

end Parses

theorem Reachable.parses {s : State} (h : Reachable cfg env s) : Parses s.core :=
  Parses.init.moves (Inv.init cfg) Confers.init h.moves.1

/-- **The packets handled for a connection are a prefix of those in its stream**, and all of
them while it is open. -/
theorem Reachable.handled_drain {s : State} (h : Reachable cfg env s) (c : ConnId) :
    handled c s.history <+: (drain Codec.cutter (s.conn c).received).1 ∧
      ((s.conn c).closed = false → drain Codec.cutter (s.conn c).received
        = (handled c s.history, (s.conn c).readBuffer.readable)) := by
  have hcuts := h.parses.cuts c
  refine ⟨hcuts.isPrefix (drain_cuts _) (drain_stuck _), fun hopen => hcuts.drain_eq ?_⟩
  have hwait : Codec.next (s.conn c).readBuffer.readable = .wait := h.moves.2 c hopen
  intro a n htake
  have htake' : Codec.next (s.conn c).readBuffer.readable = .take a n := htake
  rw [hwait] at htake'
  simp at htake'

/-! ### Chunks -/

/-- The bytes an event brings in from `c`. -/
def Event.chunkFor (c : ConnId) : Event → Option Bytes
  | .receive d data => if d = c then some data else none
  | _ => none

theorem step_received {s s' : State} (h : Reachable cfg env s) {e : Event}
    (hstep : step cfg env s e = some s') (c : ConnId) :
    (s'.conn c).received = (s.conn c).received ++ (e.chunkFor c).getD [] := by
  have hinv := h.inv
  cases e with
  | accept =>
      simp only [step, Option.some.injEq] at hstep
      subst hstep
      simp only [Event.chunkFor, Option.getD_none, List.append_nil, Function.update_apply]
      split
      · rename_i hc
        subst hc
        -- nothing had been received from the connection before it was accepted
        exact (h.confers.unborn fun hlt => Nat.lt_irrefl _ hlt.2).2.1.symm
      · rfl
  | receive d data =>
      simp only [step] at hstep
      split at hstep
      · rename_i hguard
        rw [Option.some.injEq] at hstep
        subst hstep
        let read := s.updateConn d (Connection.readSome data)
        have hcore : read.core = _ := core_readSome d data
        have hmove : Move cfg env s.core read.core := by
          rw [hcore]
          exact .receive d data hguard.1
        have hread : Inv cfg read.core := hinv.move hmove
        obtain ⟨-, hreads, -⟩ := readLoop_moves env d
          ((read.conn d).readBuffer.readableSize + 1) read {} hread
        have hreceived : ((onConnectionRead cfg env read d).conn c).received
            = (read.conn c).received := congrFun hreads.received c
        rw [hreceived]
        simp only [read, State.updateConn, Function.update_apply, Event.chunkFor]
        by_cases hc : c = d
        · subst hc
          rw [if_pos rfl, if_pos rfl]
          rfl
        · rw [if_neg hc, if_neg (Ne.symm hc), Option.getD_none, List.append_nil]
      · simp at hstep
  | readError d =>
      simp only [step] at hstep
      split at hstep
      · rw [Option.some.injEq] at hstep
        subst hstep
        simp only [Event.chunkFor, Option.getD_none, List.append_nil]
        exact congrFun (close_acts env hinv d).beside.received c
      · simp at hstep
  | writeDone d length =>
      simp only [step] at hstep
      split at hstep
      · rw [Option.some.injEq] at hstep
        subst hstep
        simp only [Event.chunkFor, Option.getD_none, List.append_nil]
        exact congrFun (congrArg Core.received (core_writeDone d length)) c
      · simp at hstep
  | writeError d =>
      simp only [step] at hstep
      split at hstep
      · rw [Option.some.injEq] at hstep
        subst hstep
        simp only [Event.chunkFor, Option.getD_none, List.append_nil]
        exact congrFun (close_acts env hinv d).beside.received c
      · simp at hstep

theorem run_received {s s' : State} (h : Reachable cfg env s) {es : List Event}
    (hrun : Run.run (step cfg env) s es = some s') (c : ConnId) :
    (s'.conn c).received = (s.conn c).received ++ (es.filterMap (Event.chunkFor c)).flatten := by
  induction es generalizing s with
  | nil =>
      rw [Run.run_nil, Option.some.injEq] at hrun
      subst hrun
      simp
  | cons e es ih =>
      obtain ⟨mid, he, hrest⟩ := Run.run_cons_some hrun
      have hmid : Reachable cfg env mid := Run.Reachable.next h he
      rw [ih hmid hrest, step_received h he c, List.filterMap_cons]
      cases e.chunkFor c <;> simp

/-- **What a connection has received is the chunks of its events**, put together. -/
theorem received_eq_chunks {s : State} {es : List Event}
    (hrun : Run.run (step cfg env) {} es = some s) (c : ConnId) :
    (s.conn c).received = (es.filterMap (Event.chunkFor c)).flatten :=
  run_received ⟨[], rfl⟩ hrun c

end CloudMeeting.Server
