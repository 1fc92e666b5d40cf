/-
The receive pipeline against a parser of whole streams.

`parse` reads a finished string of bytes: packet after packet, up to an incomplete frame
or a malformed one.  It knows nothing of buffers, chunks or connections.  The server
reads the same bytes in pieces, and between two packets a handler may close the
connection or move it into a room.  `pipeline` says what that comes to: a connection has
been handed the packets of `parse`, up to the malformed frame or the packet that closed
it, and while it is open the bytes held back are the incomplete frame.

The loop is followed from one packet to the next.  `Reading` are the states it passes
through, each inside one event of a run.
-/
import CloudMeeting.Server.Guarantees
import Mathlib.Data.List.Induction

namespace CloudMeeting.Server

open Endian Framing Wire

variable {cfg : ServerConfig} {env : Env} {s : State}

/-! ### The reference parser -/

/-- How a string of bytes ends. -/
inductive Ending where
  /-- With the beginning of a frame, or with nothing. -/
  | incomplete (rest : Bytes)
  | malformed
deriving DecidableEq

/-- Parse at most `fuel` packets. -/
def parseFuel : Nat → Bytes → List Packet × Ending
  | 0, bs => ([], .incomplete bs)
  | fuel + 1, bs =>
      if bs.length < headerSize then ([], .incomplete bs)
      else if bs.headD 0 ≠ magic then ([], .malformed)
      else
        let size := (lengthOf bs).toNat
        if bs.length < headerSize + size + 1 then ([], .incomplete bs)
        else if bs.getD (headerSize + size) 0 ≠ tail then ([], .malformed)
        else
          let after := parseFuel fuel (bs.drop (headerSize + size + 1))
          (⟨⟨typeOf bs⟩, ipOf bs, dataOf bs size⟩ :: after.1, after.2)

/-- The packets of a string of bytes, and how it ends. -/
def parse (bs : Bytes) : List Packet × Ending := parseFuel bs.length bs

theorem parseFuel_wait {fuel : Nat} {bs : Bytes} (h : Codec.next bs = .wait) :
    parseFuel fuel bs = ([], .incomplete bs) := by
  cases fuel with
  | zero => rfl
  | succ fuel =>
      unfold Codec.next at h
      rw [parseFuel]
      split at h
      · rename_i hshort
        rw [if_pos hshort]
      · rename_i hlong
        split at h
        · simp at h
        · rename_i hmagic
          rw [if_neg hlong, if_neg hmagic]
          split at h
          · rename_i hpart
            exact if_pos hpart
          · split at h <;> simp at h

theorem parseFuel_reject {fuel : Nat} {bs : Bytes} (h : Codec.next bs = .reject) :
    parseFuel (fuel + 1) bs = ([], .malformed) := by
  unfold Codec.next at h
  rw [parseFuel]
  split at h
  · simp at h
  rename_i hlong
  rw [if_neg hlong]
  split at h
  · rename_i hmagic
    rw [if_pos hmagic]
  rename_i hmagic
  rw [if_neg hmagic]
  split at h
  · simp at h
  rename_i hwhole
  split at h
  · rename_i htail
    simp only [if_neg hwhole, if_pos htail]
  · simp at h

theorem parseFuel_take {fuel : Nat} {bs : Bytes} {p : Packet} {n : Nat}
    (h : Codec.next bs = .take p n) :
    parseFuel (fuel + 1) bs
      = (p :: (parseFuel fuel (bs.drop n)).1, (parseFuel fuel (bs.drop n)).2) := by
  unfold Codec.next at h
  rw [parseFuel]
  split at h
  · simp at h
  rename_i hlong
  rw [if_neg hlong]
  split at h
  · simp at h
  rename_i hmagic
  rw [if_neg hmagic]
  split at h
  · simp at h
  rename_i hwhole
  split at h
  · simp at h
  rename_i htail
  rw [Next.take.injEq] at h
  obtain ⟨rfl, rfl⟩ := h
  simp only [if_neg hwhole, if_neg htail]

/-- Two amounts of fuel that suffice give the same. -/
theorem parseFuel_congr {fuel fuel' : Nat} {bs : Bytes} (hfuel : bs.length ≤ fuel)
    (hfuel' : bs.length ≤ fuel') : parseFuel fuel bs = parseFuel fuel' bs := by
  induction fuel generalizing fuel' bs with
  | zero =>
      have hnil : bs = [] := List.length_eq_zero_iff.mp (Nat.le_zero.mp hfuel)
      subst hnil
      rw [parseFuel_wait rfl, parseFuel_wait rfl]
  | succ fuel ih =>
      cases hnext : Codec.next bs with
      | wait => rw [parseFuel_wait hnext, parseFuel_wait hnext]
      | reject =>
          have hle : headerSize ≤ bs.length := Codec.next_wait_or_le (by rw [hnext]; simp)
          cases fuel' with
          | zero => simp only [headerSize] at hle; omega
          | succ fuel' => rw [parseFuel_reject hnext, parseFuel_reject hnext]
      | take p n =>
          obtain ⟨hn, hle⟩ := Codec.next_take hnext
          cases fuel' with
          | zero => omega
          | succ fuel' =>
              have hdrop : (bs.drop n).length ≤ fuel := by rw [List.length_drop]; omega
              have hdrop' : (bs.drop n).length ≤ fuel' := by rw [List.length_drop]; omega
              rw [parseFuel_take hnext, parseFuel_take hnext, ih hdrop hdrop']

theorem parseFuel_eq_parse {fuel : Nat} {bs : Bytes} (hfuel : bs.length ≤ fuel) :
    parseFuel fuel bs = parse bs :=
  parseFuel_congr hfuel (Nat.le_refl _)

section Parse

variable {bs : Bytes}

theorem parse_wait (h : Codec.next bs = .wait) : parse bs = ([], .incomplete bs) :=
  parseFuel_wait h

theorem parse_reject (h : Codec.next bs = .reject) : parse bs = ([], .malformed) := by
  rw [← parseFuel_eq_parse (Nat.le_succ _), parseFuel_reject h]

theorem parse_take {p : Packet} {n : Nat} (h : Codec.next bs = .take p n) :
    parse bs = (p :: (parse (bs.drop n)).1, (parse (bs.drop n)).2) := by
  have hdrop : (bs.drop n).length ≤ bs.length := by rw [List.length_drop]; omega
  rw [← parseFuel_eq_parse (Nat.le_succ _), parseFuel_take h, parseFuel_eq_parse hdrop]

/-- Cutting some packets off first changes nothing. -/
theorem parse_of_cuts {ps : List Packet} {rest : Bytes} (h : Cuts Codec.cutter bs ps rest) :
    parse bs = (ps ++ (parse rest).1, (parse rest).2) := by
  induction h with
  | done bs => rfl
  | step hnext _ ih => rw [parse_take hnext, ih, List.cons_append]

/-- The packets of a string are cut off it. -/
theorem cuts_parse (bs : Bytes) : ∃ rest, Cuts Codec.cutter bs (parse bs).1 rest ∧
    ((parse bs).2 = .incomplete rest ∧ Codec.next rest = .wait
      ∨ (parse bs).2 = .malformed ∧ Codec.next rest = .reject) := by
  have hcuts := drain_cuts (c := Codec.cutter) bs
  have hstuck := drain_stuck (c := Codec.cutter) bs
  have hparse := parse_of_cuts hcuts
  cases hnext : Codec.next (drain Codec.cutter bs).2 with
  | wait =>
      rw [parse_wait hnext, List.append_nil] at hparse
      rw [hparse]
      exact ⟨_, hcuts, Or.inl ⟨rfl, hnext⟩⟩
  | reject =>
      rw [parse_reject hnext, List.append_nil] at hparse
      rw [hparse]
      exact ⟨_, hcuts, Or.inr ⟨rfl, hnext⟩⟩
  | take p n => exact absurd hnext (hstuck p n)

/-- More bytes lengthen the list of packets. -/
theorem parse_append (bs more : Bytes) :
    ∃ ps ending, parse (bs ++ more) = ((parse bs).1 ++ ps, ending) := by
  obtain ⟨rest, hcuts, -⟩ := cuts_parse bs
  exact ⟨_, _, parse_of_cuts (hcuts.append more)⟩

/-- Nothing is read behind a malformed frame. -/
theorem parse_append_malformed {ps : List Packet} (h : parse bs = (ps, .malformed))
    (more : Bytes) : parse (bs ++ more) = (ps, .malformed) := by
  obtain ⟨rest, hcuts, ⟨hending, -⟩ | ⟨-, hreject⟩⟩ := cuts_parse bs
  · rw [h] at hending
    simp at hending
  · have hreject' : Codec.next (rest ++ more) = .reject := by
      rw [Codec.next_append (by rw [hreject]; simp), hreject]
    rw [parse_of_cuts (hcuts.append more), parse_reject hreject', h, List.append_nil]

end Parse

/-! ### The states of the read loop -/

/-- The states of the loop of `on_connection_read`, when `data` has been read from `c` after
the events `before`. -/
inductive Reading (cfg : ServerConfig) (env : Env) (before : List Event) (c : ConnId)
    (data : Bytes) : State → Prop
  | start {s : State} (hrun : Run.run (step cfg env) {} before = some s) (hborn : s.Accepted c)
      (hdata : data ≠ []) :
      Reading cfg env before c data (s.updateConn c (Connection.readSome data))
  | next {s : State} {last p : Packet} {buffer : Buffer} (h : Reading cfg env before c data s)
      (hopen : s.isOpen c = true)
      (htake : Codec.tryDecode (s.conn c).readBuffer last = (.ok, buffer, p)) :
      Reading cfg env before c data
        (dispatch cfg env (s.updateConn c fun conn => { conn with readBuffer := buffer }) c p)

/-- A packet that is decoded is the one in front. -/
theorem next_of_tryDecode {buffer left : Buffer} {last p : Packet} (h : buffer.WF)
    (htake : Codec.tryDecode buffer last = (.ok, left, p)) :
    ∃ n, Codec.next buffer.readable = .take p n ∧ left = buffer.moveReadPos n := by
  have hdecode := Codec.tryDecode_spec h last
  cases hnext : Codec.next buffer.readable with
  | wait =>
      rw [hnext] at hdecode
      obtain ⟨q, hq⟩ := hdecode
      rw [hq] at htake
      simp at htake
  | reject =>
      rw [hnext] at hdecode
      obtain ⟨q, hq⟩ := hdecode
      rw [hq] at htake
      simp at htake
  | take q n =>
      rw [hnext] at hdecode
      have hq : Codec.tryDecode buffer last = (.ok, buffer.moveReadPos n, q) := hdecode
      rw [hq, Prod.mk.injEq, Prod.mk.injEq] at htake
      obtain ⟨-, rfl, rfl⟩ := htake
      exact ⟨n, rfl, rfl⟩

theorem Reading.moves {before : List Event} {c : ConnId} {data : Bytes}
    (h : Reading cfg env before c data s) : Moves cfg env ({} : State).core s.core := by
  induction h with
  | @start s hrun hborn hdata =>
      have hreach : Reachable cfg env s := ⟨before, hrun⟩
      apply hreach.moves.1.tail
      rw [core_readSome]
      exact .receive c data hborn
  | @next s last p buffer h hopen htake ih =>
      have hinv : Inv cfg s.core := (Inv.init cfg).moves ih
      obtain ⟨n, hnext, rfl⟩ := next_of_tryDecode (hinv.buffers c) htake
      exact ih.trans (take_moves env hinv (closed_of_isOpen.mp hopen) hnext).1

theorem Reading.inv {before : List Event} {c : ConnId} {data : Bytes}
    (h : Reading cfg env before c data s) : Inv cfg s.core :=
  (Inv.init cfg).moves h.moves

/-- After the packets `ps` of `c` the loop comes to `p`, whose handler closes `c`. -/
def ClosedBy (cfg : ServerConfig) (env : Env) (before : List Event) (c : ConnId) (data : Bytes)
    (ps : List Packet) (p : Packet) : Prop :=
  ∃ s last buffer, Reading cfg env before c data s ∧ s.isOpen c = true ∧
    handled c s.history = ps ∧
    Codec.tryDecode (s.conn c).readBuffer last = (.ok, buffer, p) ∧
    (dispatch cfg env (s.updateConn c fun conn => { conn with readBuffer := buffer }) c p).isOpen c
      = false

/-! ### The read loop -/

theorem handled_acts {k k' : Core} (h : Acts cfg env k k') (c : ConnId) :
    handled c k'.history = handled c k.history := by
  obtain ⟨more, hmore, hno⟩ := h.beside.history
  rw [hmore, handled_append, handled_of_no_packet c hno, List.append_nil]

variable (env) in
/-- A packet handed on is handled for its sender, and for nobody else. -/
theorem handled_dispatch (h : Inv cfg s.core) {c : ConnId} (hopen : s.core.closed c = false)
    (p : Packet) (d : ConnId) :
    handled d (dispatch cfg env s c p).history
      = handled d s.history ++ if c = d then [p] else [] := by
  have hacts := handled_acts (dispatch_acts env p h hopen) d
  apply hacts.trans
  rw [Core.log_history, handled_append]
  by_cases hd : c = d
  · simp [handled, Record.packetOf, hd, State.core]
  · simp [handled, Record.packetOf, hd, State.core]

section

variable {before : List Event} {c : ConnId} {data : Bytes}

/-- What the loop makes of the bytes in front of it. -/
inductive Loops (cfg : ServerConfig) (env : Env) (before : List Event) (c : ConnId) (data : Bytes)
    (s s' : State) (new : List Packet) : Prop
  | awaiting (hopen : s'.isOpen c = true)
      (hparse : parse (s.conn c).readBuffer.readable
        = (new, .incomplete (s'.conn c).readBuffer.readable))
  | malformed (hclosed : s'.isOpen c = false)
      (hparse : parse (s.conn c).readBuffer.readable = (new, .malformed))
  | closedBy (hclosed : s'.isOpen c = false) (ps more : List Packet) (p : Packet) (ending : Ending)
      (hnew : new = ps ++ [p])
      (hparse : parse (s.conn c).readBuffer.readable = (ps ++ p :: more, ending))
      (hby : ClosedBy cfg env before c data (handled c s.history ++ ps) p)

theorem Loops.cons {s mid s' : State} {new : List Packet} {p : Packet} {n : Nat}
    (hwf : (s.conn c).readBuffer.WF)
    (hnext : Codec.next (s.conn c).readBuffer.readable = .take p n)
    (hbuffer : (mid.conn c).readBuffer = (s.conn c).readBuffer.moveReadPos n)
    (hhandled : handled c mid.history = handled c s.history ++ [p])
    (h : Loops cfg env before c data mid s' new) :
    Loops cfg env before c data s s' (p :: new) := by
  have hparse := parse_take hnext
  rw [← Codec.readable_taken hwf hnext, ← hbuffer] at hparse
  cases h with
  | awaiting hopen hrest =>
      rw [hrest] at hparse
      exact .awaiting hopen hparse
  | malformed hclosed hrest =>
      rw [hrest] at hparse
      exact .malformed hclosed hparse
  | closedBy hclosed ps more q ending hnew hrest hby =>
      rw [hrest] at hparse
      rw [hhandled, List.append_assoc] at hby
      exact .closedBy hclosed (p :: ps) more q ending (by rw [hnew]; rfl) hparse hby

/-- **One read hands on what `parse` finds**, until a handler closes the connection. -/
theorem readLoop_loops :
    ∀ (fuel : Nat) (s : State) (last : Packet), Reading cfg env before c data s →
      s.isOpen c = true → (s.conn c).readBuffer.readable.length < fuel →
      ∃ new, handled c (readLoop cfg env fuel s c last).history = handled c s.history ++ new ∧
        Loops cfg env before c data s (readLoop cfg env fuel s c last) new := by
  intro fuel
  induction fuel with
  | zero => exact fun s _ _ _ hfuel => absurd hfuel (Nat.not_lt_zero _)
  | succ fuel ih =>
      intro s last hreading hisOpen hfuel
      have hinv := hreading.inv
      have hopen := closed_of_isOpen.mp hisOpen
      cases hnext : Codec.next (s.conn c).readBuffer.readable with
      | wait =>
          rw [readLoop_wait hinv hopen hnext]
          exact ⟨[], by simp, .awaiting hisOpen (parse_wait hnext)⟩
      | reject =>
          obtain ⟨hacts, hclosed⟩ := malformed_acts env hinv hopen hnext
          rw [readLoop_reject hinv hopen hnext]
          refine ⟨[], ?_, .malformed (closed_of_not_isOpen.mpr hclosed) (parse_reject hnext)⟩
          rw [List.append_nil]
          exact handled_acts hacts c
      | take p n =>
          have htake : Codec.tryDecode (s.conn c).readBuffer last
              = (.ok, (s.conn c).readBuffer.moveReadPos n, p) := by
            have hdecode := Codec.tryDecode_spec (hinv.buffers c) last
            have hbuffer : s.core.readBuffer c = (s.conn c).readBuffer := rfl
            rw [hbuffer, hnext] at hdecode
            exact hdecode
          let taken := s.updateConn c fun conn =>
            { conn with readBuffer := (s.conn c).readBuffer.moveReadPos n }
          let mid := dispatch cfg env taken c p
          have hmid : Reading cfg env before c data mid := .next hreading hisOpen htake
          obtain ⟨-, -, hbuffer⟩ := take_moves env hinv hopen hnext
          have hhandled : handled c mid.history = handled c s.history ++ [p] := by
            have hstill : taken.core.closed c = false := by
              rw [core_updateReadBuffer]
              exact hopen
            rw [handled_dispatch env (Inv.take env hinv hopen hnext) hstill p c, if_pos rfl]
            rfl
          rw [readLoop_take hinv hopen hnext]
          cases hstill : mid.isOpen c with
          | false =>
              have hstop : readLoop cfg env fuel mid c p = mid := by
                cases fuel with
                | zero => rfl
                | succ fuel => exact readLoop_closed (by rw [closed_of_not_isOpen.mp hstill]; simp)
              rw [hstop]
              refine ⟨[p], hhandled, .closedBy hstill [] _ p _ rfl (parse_take hnext) ?_⟩
              rw [List.append_nil]
              exact ⟨s, last, _, hreading, hisOpen, rfl, htake, hstill⟩
          | true =>
              have hlen := Codec.next_take hnext
              have hleft : ((s.conn c).readBuffer.moveReadPos n).readable
                  = (s.conn c).readBuffer.readable.drop n :=
                Codec.readable_taken (hinv.buffers c) hnext
              have hshort : (mid.conn c).readBuffer.readable.length < fuel := by
                rw [hbuffer, hleft, List.length_drop]
                omega
              obtain ⟨new, hnew, hloops⟩ := ih mid p hmid hstill hshort
              refine ⟨p :: new, ?_, hloops.cons (hinv.buffers c) hnext hbuffer hhandled⟩
              rw [hnew, hhandled, List.append_assoc]
              rfl

end

variable (env) in
/-- Reading from one connection handles no packets of another, and accepts nobody. -/
theorem readLoop_others (d : ConnId) :
    ∀ (fuel : Nat) (s : State) (last : Packet), Inv cfg s.core →
      (readLoop cfg env fuel s d last).nextConnId = s.nextConnId ∧
      ∀ c, c ≠ d → handled c (readLoop cfg env fuel s d last).history = handled c s.history := by
  intro fuel
  induction fuel with
  | zero => exact fun s _ _ => ⟨rfl, fun _ _ => rfl⟩
  | succ fuel ih =>
      intro s last hinv
      by_cases hopen : s.core.closed d = false
      · cases hnext : Codec.next (s.conn d).readBuffer.readable with
        | wait =>
            rw [readLoop_wait hinv hopen hnext]
            exact ⟨rfl, fun _ _ => rfl⟩
        | reject =>
            have hacts := (malformed_acts env hinv hopen hnext).1
            rw [readLoop_reject hinv hopen hnext]
            exact ⟨hacts.beside.nextConnId, fun c _ => handled_acts hacts c⟩
        | take p n =>
            have htaken := Inv.take env hinv hopen hnext
            have hstill : (s.updateConn d fun conn => { conn with
                readBuffer := (s.conn d).readBuffer.moveReadPos n }).core.closed d = false := by
              rw [core_updateReadBuffer]
              exact hopen
            have hacts := dispatch_acts env p htaken hstill
            obtain ⟨hmoves, -, -⟩ := take_moves env hinv hopen hnext
            obtain ⟨h1, h2⟩ := ih _ p (hinv.moves hmoves)
            rw [readLoop_take hinv hopen hnext]
            refine ⟨h1.trans hacts.beside.nextConnId, fun c hc => (h2 c hc).trans ?_⟩
            rw [handled_dispatch env htaken hstill p c, if_neg (Ne.symm hc), List.append_nil]
            rfl
      · rw [readLoop_closed hopen]
        exact ⟨rfl, fun _ _ => rfl⟩

/-! ### Whole runs -/

/-- The bytes read from a connection. -/
def stream (c : ConnId) (es : List Event) : Bytes := (es.filterMap (Event.chunkFor c)).flatten

theorem stream_snoc (c : ConnId) (es : List Event) (e : Event) :
    stream c (es ++ [e]) = stream c es ++ (e.chunkFor c).getD [] := by
  rw [stream, List.filterMap_append, List.flatten_append]
  cases he : e.chunkFor c <;> simp [stream, he]

/-- What has become of the stream of a connection in a run. -/
inductive Pipeline (cfg : ServerConfig) (env : Env) (es : List Event) (s : State) (c : ConnId) :
    Prop
  /-- The connection is open: the bytes held back are an incomplete frame. -/
  | awaiting (hopen : s.isOpen c = true)
      (hparse : parse (stream c es)
        = (handled c s.history, .incomplete (s.conn c).readBuffer.readable))
  /-- A malformed frame has closed it. -/
  | malformed (hclosed : s.isOpen c = false)
      (hparse : parse (stream c es) = (handled c s.history, .malformed))
  /-- The handler of `p` has closed it. -/
  | closedBy (hclosed : s.isOpen c = false) (ps more : List Packet) (p : Packet) (ending : Ending)
      (before after : List Event) (data : Bytes) (hes : es = before ++ .receive c data :: after)
      (hhandled : handled c s.history = ps ++ [p])
      (hparse : parse (stream c es) = (ps ++ p :: more, ending))
      (hby : ClosedBy cfg env before c data ps p)
  /-- Something else than its own bytes has closed it; it had been handed the packets that had
  arrived by then. -/
  | cutOff (hclosed : s.isOpen c = false) (before after : List Event) (e : Event) (t t' : State)
      (hes : es = before ++ e :: after) (hother : e.chunkFor c = none)
      (hrun : Run.run (step cfg env) {} before = some t) (hopen : t.isOpen c = true)
      (hstep : step cfg env t e = some t') (hshut : t'.isOpen c = false)
      (hparse : parse (stream c before)
        = (handled c s.history, .incomplete (t.conn c).readBuffer.readable))
  /-- It has not been accepted yet. -/
  | unborn (hborn : ¬ s.Accepted c) (hstream : stream c es = [])
      (hhandled : handled c s.history = [])

/-- While a connection is open, everything it has received has been parsed. -/
theorem pipeline_awaiting {es : List Event} (hrun : Run.run (step cfg env) {} es = some s)
    {c : ConnId} (hopen : s.isOpen c = true) : Pipeline cfg env es s c := by
  have hreach : Reachable cfg env s := ⟨es, hrun⟩
  have hcuts := hreach.parses.cuts c
  have hreceived : s.core.received c = stream c es := received_eq_chunks hrun c
  have hwait : Codec.next (s.conn c).readBuffer.readable = .wait :=
    hreach.moves.2 c (closed_of_isOpen.mp hopen)
  refine .awaiting hopen ?_
  have hbuffer : s.core.readBuffer c = (s.conn c).readBuffer := rfl
  rw [hreceived, hbuffer] at hcuts
  rw [parse_of_cuts hcuts, parse_wait hwait, List.append_nil]
  rfl

theorem pipeline_unborn {es : List Event} (hrun : Run.run (step cfg env) {} es = some s)
    {c : ConnId} (hborn : ¬ s.Accepted c) : Pipeline cfg env es s c := by
  have hreach : Reachable cfg env s := ⟨es, hrun⟩
  have hreceived : s.core.received c = [] := (hreach.confers.unborn hborn).2.1
  have hstream : stream c es = [] := (received_eq_chunks hrun c).symm.trans hreceived
  have hcuts := hreach.parses.cuts c
  rw [hreceived] at hcuts
  refine .unborn hborn hstream ?_
  have hprefix := hcuts.isPrefix (Cuts.done []) Codec.cutter.stuck_nil
  exact List.prefix_nil.mp hprefix

/-- An event that brings in nothing from an open connection hands nothing on for it, and only
`accept` accepts a connection. -/
theorem step_handled {s s' : State} (h : Inv cfg s.core) {e : Event}
    (hstep : step cfg env s e = some s') {c : ConnId}
    (hquiet : e.chunkFor c = none ∨ s.isOpen c = false) :
    handled c s'.history = handled c s.history ∧ (e ≠ .accept → s'.nextConnId = s.nextConnId) := by
  have hclose : ∀ d, handled c (close env s d).history = handled c s.history ∧
      (close env s d).nextConnId = s.nextConnId := fun d =>
    ⟨handled_acts (close_acts env h d) c, (close_acts env h d).beside.nextConnId⟩
  cases e with
  | accept =>
      simp only [step, Option.some.injEq] at hstep
      subst hstep
      exact ⟨rfl, fun hne => absurd rfl hne⟩
  | receive d data =>
      simp only [step] at hstep
      split at hstep
      · rename_i hguard
        rw [Option.some.injEq] at hstep
        subst hstep
        let read := s.updateConn d (Connection.readSome data)
        have hread : Inv cfg read.core := by
          have hmove : Move cfg env s.core read.core := by
            have hcore : read.core = _ := core_readSome d data
            rw [hcore]
            exact .receive d data hguard.1
          exact h.move hmove
        obtain ⟨h1, h2⟩ := readLoop_others env d ((read.conn d).readBuffer.readableSize + 1)
          read {} hread
        refine ⟨?_, fun _ => h1⟩
        by_cases hc : c = d
        · subst hc
          rcases hquiet with hnone | hclosed
          · simp [Event.chunkFor] at hnone
          · have hshut : read.core.closed c ≠ false := by
              have hcore : read.core = _ := core_readSome c data
              rw [hcore, closed_of_not_isOpen.mp hclosed]
              simp
            show handled c (readLoop cfg env _ read c {}).history = _
            rw [readLoop_closed hshut]
            rfl
        · exact h2 c hc
      · simp at hstep
  | readError d =>
      simp only [step] at hstep
      split at hstep
      · rw [Option.some.injEq] at hstep
        subst hstep
        exact ⟨(hclose d).1, fun _ => (hclose d).2⟩
      · simp at hstep
  | writeDone d length =>
      simp only [step] at hstep
      split at hstep
      · rw [Option.some.injEq] at hstep
        subst hstep
        exact ⟨rfl, fun _ => rfl⟩
      · simp at hstep
  | writeError d =>
      simp only [step] at hstep
      split at hstep
      · rw [Option.some.injEq] at hstep
        subst hstep
        exact ⟨(hclose d).1, fun _ => (hclose d).2⟩
      · simp at hstep

section

variable {es : List Event} {c : ConnId}

/-- A read that closes its own connection. -/
theorem pipeline_read {s s' : State} {data : Bytes}
    (hrun : Run.run (step cfg env) {} es = some s) (hopen : s.isOpen c = true)
    (hborn : s.Accepted c) (hdata : data ≠ [])
    (hs' : s' = onConnectionRead cfg env (s.updateConn c (Connection.readSome data)) c)
    (hclosed : s'.isOpen c = false) :
    Pipeline cfg env (es ++ [.receive c data]) s' c := by
  have hreach : Reachable cfg env s := ⟨es, hrun⟩
  let read := s.updateConn c (Connection.readSome data)
  have hreading : Reading cfg env es c data read := .start hrun hborn hdata
  have hcore : read.core = _ := core_readSome c data
  have hisOpen : read.isOpen c = true := by
    rw [closed_of_isOpen, hcore]
    exact closed_of_isOpen.mp hopen
  have hlen := Buffer.length_readable (hreading.inv.buffers c)
  obtain ⟨new, hnew, hloops⟩ := readLoop_loops ((read.conn c).readBuffer.readableSize + 1) read {}
    hreading hisOpen (Nat.lt_succ_of_le (Nat.le_of_eq hlen))
  -- what was held back and what has been read now are the rest of the stream
  have hcuts := (hreach.parses.cuts c).append data
  have hreceived : s.core.received c = stream c es := received_eq_chunks hrun c
  have hreadable : (read.conn c).readBuffer.readable = (s.core.readBuffer c).readable ++ data := by
    have hbuffer : (read.conn c).readBuffer = (s.core.readBuffer c).write data := by
      show read.core.readBuffer c = _
      rw [hcore]
      exact Function.update_self ..
    rw [hbuffer, (Buffer.write_spec (hreach.inv.buffers c) data).2]
  have hstream : stream c (es ++ [.receive c data]) = stream c es ++ data := by
    rw [stream_snoc]
    simp [Event.chunkFor]
  rw [hreceived, ← hstream, ← hreadable] at hcuts
  have hparse := parse_of_cuts hcuts
  have hhandled : handled c s'.history = handled c s.history ++ new := by
    rw [hs']
    exact hnew
  have hloops' : Loops cfg env es c data read s' new := hs' ▸ hloops
  cases hloops' with
  | awaiting hstill hrest =>
      rw [hclosed] at hstill
      simp at hstill
  | malformed _ hrest =>
      rw [hrest] at hparse
      refine .malformed hclosed ?_
      rw [hparse, hhandled]
      rfl
  | closedBy _ ps more p ending hps hrest hby =>
      rw [hrest] at hparse
      refine .closedBy hclosed (handled c s.history ++ ps) more p ending es [] data rfl ?_ ?_ hby
      · rw [hhandled, hps, List.append_assoc]
      · rw [hparse, List.append_assoc]
        rfl

/-- Once a connection has closed, its stream may go on but nothing more comes of it. -/
theorem Pipeline.later {s s' : State} {e : Event} (h : Pipeline cfg env es s c)
    (hborn : s.Accepted c) (hclosed : s.isOpen c = false) (hclosed' : s'.isOpen c = false)
    (hhandled : handled c s'.history = handled c s.history) :
    Pipeline cfg env (es ++ [e]) s' c := by
  cases h with
  | awaiting hopen _ =>
      rw [hclosed] at hopen
      simp at hopen
  | malformed _ hparse =>
      refine .malformed hclosed' ?_
      rw [stream_snoc, hhandled]
      exact parse_append_malformed hparse _
  | closedBy _ ps more p ending before after data hes hps hparse hby =>
      obtain ⟨more', ending', hparse'⟩ := parse_append (stream c es) ((e.chunkFor c).getD [])
      refine .closedBy hclosed' ps (more ++ more') p ending' before (after ++ [e]) data ?_
        (hhandled.trans hps) ?_ hby
      · rw [hes, List.append_assoc]
        rfl
      · rw [stream_snoc, hparse', hparse, List.append_assoc]
        rfl
  | cutOff _ before after last t t' hes hother hrun hopen hstep hshut hparse =>
      refine .cutOff hclosed' before (after ++ [e]) last t t' ?_ hother hrun hopen hstep hshut ?_
      · rw [hes, List.append_assoc]
        rfl
      · rw [hparse, hhandled]
  | unborn hnot _ _ => exact absurd hborn hnot

theorem Pipeline.step {s s' : State} {e : Event} (h : Pipeline cfg env es s c)
    (hrun : Run.run (step cfg env) {} es = some s) (hstep : step cfg env s e = some s')
    (hrun' : Run.run (Server.step cfg env) {} (es ++ [e]) = some s') :
    Pipeline cfg env (es ++ [e]) s' c := by
  have hinv := Reachable.inv ⟨es, hrun⟩
  cases hopen' : s'.isOpen c with
  | true => exact pipeline_awaiting hrun' hopen'
  | false =>
      by_cases hborn' : s'.Accepted c
      · cases hopen : s.isOpen c with
        | true =>
            by_cases hother : e.chunkFor c = none
            · have hhandled := (step_handled hinv hstep (Or.inl hother)).1
              cases h with
              | awaiting _ hparse =>
                  refine .cutOff hopen' es [] e s s' rfl hother hrun hopen hstep hopen' ?_
                  rw [hparse, hhandled]
              | malformed hclosed _ => simp [hopen] at hclosed
              | closedBy hclosed => simp [hopen] at hclosed
              | cutOff hclosed => simp [hopen] at hclosed
              | unborn hnot _ _ =>
                  exact absurd (hinv.born (closed_of_isOpen.mp hopen)) hnot
            · cases e with
              | receive d data =>
                  have hd : d = c := by
                    by_contra hne
                    exact hother (by simp [Event.chunkFor, hne])
                  subst hd
                  simp only [Server.step] at hstep
                  split at hstep
                  · rename_i hguard
                    rw [Option.some.injEq] at hstep
                    exact pipeline_read hrun hopen hguard.1 hguard.2 hstep.symm hopen'
                  · simp at hstep
              | _ => exact absurd rfl hother
        | false =>
            obtain ⟨hhandled, hnext⟩ := step_handled hinv hstep (Or.inr hopen)
            refine h.later ?_ hopen hopen' hhandled
            by_cases he : e = .accept
            · -- a connection that has just been accepted is open
              subst he
              simp only [Server.step, Option.some.injEq] at hstep
              subst hstep
              refine ⟨hborn'.1, Nat.lt_of_le_of_ne (Nat.le_of_lt_succ hborn'.2) fun heq => ?_⟩
              subst heq
              simp [State.isOpen, Connection.isOpen] at hopen'
            · have hlt := hborn'.2
              rw [hnext he] at hlt
              exact ⟨hborn'.1, hlt⟩
      · exact pipeline_unborn hrun' hborn'

end

/-- **The receive pipeline is whole-stream parsing**: in every run, for every connection. -/
theorem pipeline {es : List Event} (hrun : Run.run (step cfg env) {} es = some s) (c : ConnId) :
    Pipeline cfg env es s c := by
  induction es using List.reverseRecOn generalizing s with
  | nil =>
      rw [Run.run_nil, Option.some.injEq] at hrun
      subst hrun
      exact .unborn (fun hlt => Nat.not_lt_zero _ (Nat.lt_of_lt_of_le hlt.1
        (Nat.le_of_lt_succ hlt.2))) rfl rfl
  | append_singleton es e ih =>
      have hsplit := hrun
      rw [Run.run_append, Option.bind_eq_some_iff] at hsplit
      obtain ⟨t, ht, hlast⟩ := hsplit
      obtain ⟨t', hstep, hnil⟩ := Run.run_cons_some hlast
      rw [Run.run_nil, Option.some.injEq] at hnil
      subst hnil
      exact (ih ht).step ht hstep hrun

/-- A create request arrives in two reads; a media packet follows, and something malformed. -/
def sampleReads : List Event :=
  [.accept, .receive 1 [36, 0, 6, 0, 0], .receive 1 [0, 0, 0, 0, 0, 0, 35],
    .receive 1 (Wire.frame 4 0 [104, 105] ++ [1, 2, 3]), .receive 1 [4, 5, 6, 7, 8, 9, 10, 11]]

theorem pipeline_sampleReads :
    Pipeline {} sampleEnv sampleReads (stateAfter sampleReads) 1 ∧
      parse (stream 1 sampleReads) = ([⟨⟨6⟩, 0, []⟩, ⟨⟨4⟩, 0, [104, 105]⟩], .malformed) :=
  ⟨pipeline (run_stateAfter (by decide +kernel)) 1, by decide +kernel⟩

end CloudMeeting.Server
