import Chip8.Proofs.Machine.FrameLength
import Chip8.Proofs.Machine.Reachable
import Chip8.Proofs.Number.Binary64
import Chip8.Proofs.Screen.Views
import Chip8.Proofs.Session.Log

/-!
# The rounds of a session

What a session calls in each pass through its loop, and what becomes of the frames and instructions
that it counts.

* `Session.opening` is how a pass begins, `Heard` is where it stands once the host is asked;
* `Spaced` says of reports that no two of them fall in the same second;
* `Accounts` relates a run to its log, with one lemma for each way in which a pass can go;
* `Course` is how a run goes, pass by pass; `run_course` says that each run takes a course, and
  `run_accounts` that it has a log that accounts for it;
* `accounts_of_attainable` puts this together for a run from its start.
-/

namespace Chip8.Session

variable {p : Pacing} {host : Host} {clock : Nat → Rat} {time : Rat} {s s' : Session}

/-! ### The beginning of a pass -/

/-- How a pass of a session begins at a time. -/
def opening (s : Session) (time : Rat) : Opening :=
  ⟨time, if s.reportDue ≤ time then some s.pending else none⟩

/-- The session once the time is read, and the figures are reported if they were due. -/
def opened (p : Pacing) (time : Rat) (s : Session) : Session :=
  if s.reportDue ≤ time then report p time { s with readings := s.readings + 1 }
  else { s with readings := s.readings + 1 }

theorem trail_opening (p : Pacing) (host : Host) (clock : Nat → Rat) (s : Session) :
    Trail host clock (s.opening (clock s.readings)).calls ⟨s.machine, s.begun, s.readings⟩
      ⟨(s.opened p (clock s.readings)).machine, s.begun, s.readings + 1⟩ := by
  refine .cons (.clock ..) ?_
  unfold opening opened
  split_ifs
  · exact .cons (.title ..) (.nil _)
  · exact .nil _

theorem reports_opened (p : Pacing) (time : Rat) (s : Session) :
    (s.opened p time).reports = ((s.opening time).reports.map Prod.snd).reverse ++ s.reports := by
  unfold opened opening Opening.reports
  split_ifs <;> rfl

/-- The frames that were counted are reported, or they still are counted. -/
theorem frames_opened (p : Pacing) (time : Rat) (s : Session) :
    frameSum (s.opening time).reports + (s.opened p time).pendingFrames = s.pendingFrames := by
  unfold opened opening Opening.reports
  split_ifs <;> simp [report, pending, frameSum]

theorem instructions_opened (p : Pacing) (time : Rat) (s : Session) :
    instructionSum (s.opening time).reports + (s.opened p time).pending.instructions =
      s.pending.instructions := by
  unfold opened opening Opening.reports
  split_ifs <;> simp [report, pending, instructionSum]

theorem completed_opened (p : Pacing) (time : Rat) (s : Session) :
    (s.opened p time).machine.completed = s.machine.completed := by
  unfold opened
  split_ifs <;> rfl

theorem intact_opened (p : Pacing) (time : Rat) (hs : s.machine.Intact) :
    (s.opened p time).machine.Intact := by
  unfold opened
  split_ifs
  · exact { hs with screen := hs.screen.reportPerformance _ _ }
  · exact hs

/-! ### Spaced reports -/

/-- Whether the report after one at this time is not due before the next whole second. -/
def Spaces (p : Pacing) (time : Rat) : Prop := (⌊time⌋ : Rat) + 1 ≤ p.nextReport time

/-- Reports of which none comes before it is due, and no two in the same whole second. -/
structure Spaced (due : Rat) (reports : List (Rat × Performance)) : Prop where
  due : ∀ r ∈ reports, due ≤ r.1
  seconds : reports.Pairwise fun r r' => ⌊r.1⌋ < ⌊r'.1⌋

theorem Spaced.nil (due : Rat) : Spaced due [] := ⟨nofun, .nil⟩

/-- What is reported at the beginning of a pass is in an earlier second than what is reported after
it. -/
theorem Spaced.append_opening {rest : List (Rat × Performance)} (htime : Spaces p time)
    (h : Spaced (s.opened p time).reportDue rest) :
    Spaced s.reportDue ((s.opening time).reports ++ rest) := by
  by_cases hdue : s.reportDue ≤ time
  · have hopened : (s.opened p time).reportDue = p.nextReport time := by
      rw [opened, if_pos hdue]
      rfl
    have hreports : (s.opening time).reports = [(time, s.pending)] := by
      simp [opening, Opening.reports, hdue]
    have hlater : ∀ r ∈ rest, (⌊time⌋ : Rat) + 1 ≤ r.1 := fun r hr =>
      htime.trans (hopened ▸ h.due r hr)
    rw [hreports, List.singleton_append]
    refine ⟨List.forall_mem_cons.2 ⟨hdue, fun r hr => ?_⟩,
      List.pairwise_cons.2 ⟨fun r hr => ?_, h.seconds⟩⟩
    · exact (hdue.trans (Int.lt_floor_add_one time).le).trans (hlater r hr)
    · have hfloor : ⌊time⌋ + 1 ≤ ⌊r.1⌋ := by
        rw [Int.le_floor]
        exact_mod_cast hlater r hr
      exact hfloor
  · have hopened : (s.opened p time).reportDue = s.reportDue := by
      rw [opened, if_neg hdue]
    have hreports : (s.opening time).reports = [] := by
      simp [opening, Opening.reports, hdue]
    rw [hreports, List.nil_append, ← hopened]
    exact h

theorem spaced_opening (htime : Spaces p time) : Spaced s.reportDue (s.opening time).reports := by
  have h := (Spaced.nil (s.opened p time).reportDue).append_opening htime
  rwa [List.append_nil] at h

/-! ### Asking the host -/

/-- A session that has begun a pass and asked the host, which wants to quit or does not. -/
structure Heard (p : Pacing) (host : Host) (clock : Nat → Rat) (s : Session) (quit : Bool)
    (heard : Session) : Prop where
  trail : Trail host clock ((s.opening (clock s.readings)).calls ++ [.messages quit])
    ⟨s.machine, s.begun, s.readings⟩ ⟨heard.machine, s.begun + 1, s.readings + 1⟩
  intact : s.machine.Intact → heard.machine.Intact
  begun : heard.begun = s.begun
  readings : heard.readings = s.readings + 1
  reportDue : heard.reportDue = (s.opened p (clock s.readings)).reportDue
  reports : heard.reports =
    ((s.opening (clock s.readings)).reports.map Prod.snd).reverse ++ s.reports
  frames : frameSum (s.opening (clock s.readings)).reports + heard.pendingFrames = s.pendingFrames
  instructions : instructionSum (s.opening (clock s.readings)).reports +
    heard.pending.instructions = s.pending.instructions
  completed : heard.machine.completed = s.machine.completed

theorem heard_of_ask {quit : Bool} {heard : Session}
    (h : (s.opened p (clock s.readings)).ask host = (heard, quit)) :
    Heard p host clock s quit heard := by
  have hbegun : (s.opened p (clock s.readings)).begun = s.begun := by
    unfold opened
    split_ifs <;> rfl
  have hreadings : (s.opened p (clock s.readings)).readings = s.readings + 1 := by
    unfold opened
    split_ifs <;> rfl
  cases h
  exact {
    trail := by
      refine (trail_opening p host clock s).append ?_
      rw [hbegun]
      exact .cons (.messages ..) (.nil _)
    intact := fun hs => { intact_opened p (clock s.readings) hs with }
    begun := hbegun
    readings := hreadings
    reportDue := rfl
    reports := reports_opened p (clock s.readings) s
    frames := frames_opened p (clock s.readings) s
    instructions := instructions_opened p (clock s.readings) s
    completed := completed_opened p (clock s.readings) s }

/-! ### Frames and refreshes -/

theorem onScreen_refresh {m : Machine} (hm : m.Intact) :
    ∃ m', Machine.onScreen Screen.refresh m = .ok () m' ∧ m'.Intact ∧
      m'.completed = m.completed := by
  obtain ⟨d, hd, hscreen⟩ := hm.screen.refresh
  refine ⟨{ m with screen := { m.screen with display := d } }, ?_, { hm with screen := hscreen }, rfl⟩
  rw [Machine.onScreen_apply, hd]

/-- A frame that fails leaves the parts of a machine intact too. -/
theorem intact_of_frame_error {m m₁ : Machine} {e : Error} (hm : m.Intact)
    (h : m.frame = .error e m₁) : m₁.Intact := by
  have hstate := hm.after .frame
  rwa [show Machine.Event.frame.after m = m₁ from congrArg Action.state h] at hstate

/-- A frame that is completed is shown. -/
theorem showFrame_of_ok {frame : Action Machine Unit} {m m₁ : Machine} (h : frame m = .ok () m₁)
    (hafter : m₁.Intact) :
    ∃ m₂, Machine.onScreen Screen.refresh m₁ = .ok () m₂ ∧ showFrame frame m = .ok () m₂ ∧
      m₂.Intact := by
  obtain ⟨m₂, hrefresh, hintact, -⟩ := onScreen_refresh hafter
  exact ⟨m₂, hrefresh, by simp [showFrame, h, hrefresh], hintact⟩

/-- A frame that fails is shown too, and then its error is raised again. -/
theorem showFrame_of_error {frame : Action Machine Unit} {m m₁ : Machine} {e : Error}
    (h : frame m = .error e m₁) (hafter : m₁.Intact) :
    ∃ m₂, Machine.onScreen Screen.refresh m₁ = .ok () m₂ ∧ showFrame frame m = .error e m₂ := by
  obtain ⟨m₂, hrefresh, -, -⟩ := onScreen_refresh hafter
  exact ⟨m₂, hrefresh, by simp [showFrame, h, hrefresh]⟩

/-! ### The account of a run -/

/-- How a run from `s` to `s'` comes about by the calls of a log, and where the frames and the
instructions that it counts are left; `waits` are the times read before its first pass. -/
structure Accounts (p : Pacing) (host : Host) (clock : Nat → Rat) (s : Session) (waits : List Rat)
    (log : Log) (s' : Session) : Prop where
  trail : ∃ asked, Trail host clock (waits.map .clock ++ log.calls)
    ⟨s.machine, s.begun, s.readings⟩ ⟨s'.machine, asked, s'.readings⟩
  reports : s'.reports = (log.reports.map Prod.snd).reverse ++ s.reports
  frames : frameSum log.reports + s'.pendingFrames = s.pendingFrames + log.rounds.length
  instructions : instructionSum log.reports + s'.pending.instructions =
    s.pending.instructions + (s'.machine.completed - s.machine.completed)
  spaced : (∀ k, Spaces p (clock k)) → Spaced s.reportDue log.reports

namespace Accounts

variable {waits : List Rat} {log : Log}

/-- A run that takes no reading. -/
theorem exhausted (s : Session) : Accounts p host clock s [] ⟨[], .exhausted⟩ s where
  trail := ⟨s.begun, .nil _⟩
  reports := rfl
  frames := by simp [frameSum, Log.reports, Ending.reports]
  instructions := by simp [instructionSum, Log.reports, Ending.reports]
  spaced := fun _ => .nil s.reportDue

/-- A reading that is waited for. -/
theorem wait {frameEnd : Option Rat}
    (h : Accounts p host clock { s with readings := s.readings + 1, waitingUntil := frameEnd } waits
      log s') :
    Accounts p host clock s (clock s.readings :: waits) log s' where
  trail := by
    obtain ⟨asked, htrail⟩ := h.trail
    exact ⟨asked, .cons (.clock ..) htrail⟩
  reports := h.reports
  frames := h.frames
  instructions := h.instructions
  spaced := h.spaced

/-- A pass in which the host wants to quit. -/
theorem quit {heard : Session} (h : Heard p host clock s true heard) :
    Accounts p host clock s [] ⟨[], .quit (s.opening (clock s.readings))⟩ heard where
  trail := by
    refine ⟨s.begun + 1, ?_⟩
    rw [h.readings]
    exact h.trail
  reports := h.reports
  frames := h.frames
  instructions := by
    rw [h.completed, sub_self, add_zero]
    exact h.instructions
  spaced := fun htimes => spaced_opening (htimes s.readings)

/-- A pass whose frame fails. -/
theorem failed {heard : Session} {m₁ m₂ : Machine} {e : Error}
    (h : Heard p host clock s false heard) (hframe : heard.machine.frame = .error e m₁)
    (hrefresh : Machine.onScreen Screen.refresh m₁ = .ok () m₂) :
    Accounts p host clock s [] ⟨[], .failed (s.opening (clock s.readings)) e⟩
      { heard with machine := m₂, begun := heard.begun + 1 } where
  trail := by
    refine ⟨s.begun + 1, ?_⟩
    have htail : Trail host clock [.frame (some e), .refresh]
        ⟨heard.machine, s.begun + 1, s.readings + 1⟩ ⟨m₂, s.begun + 1, s.readings + 1⟩ :=
      .cons (.failure _ _ hframe) (.cons (.refresh _ _ hrefresh) (.nil _))
    have hall := h.trail.append htail
    rw [List.append_assoc] at hall
    rw [← h.readings] at hall
    exact hall
  reports := h.reports
  frames := h.frames
  instructions := by
    have hcompleted := h.completed
    have hsum : instructionSum (s.opening (clock s.readings)).reports +
        ((heard.machine.completed : Int) - heard.reported) = s.pending.instructions :=
      h.instructions
    change instructionSum (s.opening (clock s.readings)).reports +
      ((m₂.completed : Int) - heard.reported) =
        s.pending.instructions + (m₂.completed - s.machine.completed)
    omega
  spaced := fun htimes => spaced_opening (htimes s.readings)

/-- A pass whose frame is completed, and what comes after it. -/
theorem shown {heard : Session} {m₁ m₂ : Machine} {frameEnd : Rat}
    (h : Heard p host clock s false heard) (hframe : heard.machine.frame = .ok () m₁)
    (hrefresh : Machine.onScreen Screen.refresh m₁ = .ok () m₂)
    (hrest : Accounts p host clock
      { heard with
        machine := m₂
        begun := heard.begun + 1
        pendingFrames := heard.pendingFrames + 1
        waitingUntil := some frameEnd } waits log s') :
    Accounts p host clock s [] (log.cons ⟨s.opening (clock s.readings), waits⟩) s' where
  trail := by
    obtain ⟨asked, htrail⟩ := hrest.trail
    refine ⟨asked, ?_⟩
    have hround : Trail host clock [.frame none, .refresh]
        ⟨heard.machine, s.begun + 1, s.readings + 1⟩ ⟨m₂, s.begun + 1, s.readings + 1⟩ :=
      .cons (.frame _ _ hframe) (.cons (.refresh _ _ hrefresh) (.nil _))
    have hcalls : ([] : List Rat).map .clock ++
        (log.cons ⟨s.opening (clock s.readings), waits⟩).calls =
          ((s.opening (clock s.readings)).calls ++ [.messages false]) ++ [.frame none, .refresh] ++
            (waits.map .clock ++ log.calls) := by
      simp [Log.calls_cons, Round.calls]
    rw [hcalls]
    refine (h.trail.append hround).append ?_
    rw [← h.readings, ← h.begun]
    exact htrail
  reports := by
    rw [hrest.reports, Log.reports_cons, List.map_append, List.reverse_append, List.append_assoc]
    exact congrArg _ h.reports
  frames := by
    have hsum := h.frames
    have hrest := hrest.frames
    rw [Log.reports_cons, frameSum_append]
    change frameSum (s.opening (clock s.readings)).reports + frameSum log.reports + _ =
      _ + (log.rounds.length + 1)
    simp only at hrest
    omega
  instructions := by
    have hcompleted := h.completed
    have hsum : instructionSum (s.opening (clock s.readings)).reports +
        ((heard.machine.completed : Int) - heard.reported) = s.pending.instructions :=
      h.instructions
    have hrest : instructionSum log.reports + s'.pending.instructions =
        ((m₂.completed : Int) - heard.reported) + (s'.machine.completed - m₂.completed) :=
      hrest.instructions
    rw [Log.reports_cons, instructionSum_append]
    change instructionSum (s.opening (clock s.readings)).reports + instructionSum log.reports + _ = _
    omega
  spaced := by
    intro htimes
    have hafter : Spaced (s.opened p (clock s.readings)).reportDue log.reports :=
      h.reportDue ▸ hrest.spaced htimes
    rw [Log.reports_cons]
    exact hafter.append_opening (htimes s.readings)

end Accounts

/-! ### Readings -/

/-- The session after a reading with which it waits for the end of its frame. -/
def waited (time frameEnd : Rat) (s : Session) : Session :=
  { s with
    readings := s.readings + 1
    waitingUntil := if time < frameEnd then some frameEnd else none }

/-- The session whose machine has completed a frame and shown it. -/
def shown (frameEnd : Rat) (machine : Machine) (s : Session) : Session :=
  { s with
    machine
    begun := s.begun + 1
    pendingFrames := s.pendingFrames + 1
    waitingUntil := some frameEnd }

theorem onReadingWith_of_waiting (frame : Action Machine Unit) {frameEnd : Rat}
    (h : s.waitingUntil = some frameEnd) (p : Pacing) (host : Host) (time : Rat) :
    onReadingWith frame p host time s = .ok false (s.waited time frameEnd) := by
  by_cases htime : time < frameEnd <;> simp [onReadingWith, waited, h, htime]

/-- What a reading does that begins a pass. -/
theorem onReadingWith_of_not_waiting (frame : Action Machine Unit) (h : s.waitingUntil = none)
    (p : Pacing) (host : Host) (time : Rat) :
    onReadingWith frame p host time s = match (s.opened p time).ask host with
      | (heard, true) => .ok true heard
      | (heard, false) =>
        match runFrame frame p time heard with
        | .ok _ s => .ok false s
        | .error e s => .error e s := by
  have hbegins : onReadingWith frame p host time s =
      beginFrame frame p host time { s with readings := s.readings + 1 } := by
    simp [onReadingWith, h]
  rw [hbegins]
  rfl

section Run

variable {reading : Rat → Action Session Bool} {limit : Nat}

theorem run_of_quit (h : reading (clock s.readings) s = .ok true s') :
    run reading clock (limit + 1) s = .ok () s' := by
  simp [run, h]

theorem run_of_ok (h : reading (clock s.readings) s = .ok false s') :
    run reading clock (limit + 1) s = run reading clock limit s' := by
  simp [run, h]

theorem run_of_error {e : Error} (h : reading (clock s.readings) s = .error e s') :
    run reading clock (limit + 1) s = .error e s' := by
  simp [run, h]

end Run

/-! ### The course of a run -/

/-- How a run from `s` to `s'` goes, pass by pass, with the log that is kept of it; `waits` are the
times read before its first pass. -/
inductive Course (p : Pacing) (host : Host) (clock : Nat → Rat) :
    Session → List Rat → Log → Session → Prop
  /-- No reading is taken. -/
  | exhausted (s : Session) : Course p host clock s [] ⟨[], .exhausted⟩ s
  /-- A reading is waited for. -/
  | wait {s s' : Session} {waits : List Rat} {log : Log} {frameEnd : Rat}
      (hwait : s.waitingUntil = some frameEnd)
      (rest : Course p host clock (s.waited (clock s.readings) frameEnd) waits log s') :
      Course p host clock s (clock s.readings :: waits) log s'
  /-- A pass begins, and the host wants to quit. -/
  | quit {s heard : Session} (hwait : s.waitingUntil = none)
      (hask : (s.opened p (clock s.readings)).ask host = (heard, true)) :
      Course p host clock s [] ⟨[], .quit (s.opening (clock s.readings))⟩ heard
  /-- A pass begins, and its frame fails. -/
  | failed {s heard : Session} {m₁ m₂ : Machine} {e : Error} (hwait : s.waitingUntil = none)
      (hask : (s.opened p (clock s.readings)).ask host = (heard, false))
      (hframe : heard.machine.frame = .error e m₁)
      (hrefresh : Machine.onScreen Screen.refresh m₁ = .ok () m₂) :
      Course p host clock s [] ⟨[], .failed (s.opening (clock s.readings)) e⟩
        { heard with machine := m₂, begun := heard.begun + 1 }
  /-- A pass begins, its frame is completed, and the run goes on. -/
  | shown {s s' heard : Session} {waits : List Rat} {log : Log} {m₁ m₂ : Machine}
      (hwait : s.waitingUntil = none)
      (hask : (s.opened p (clock s.readings)).ask host = (heard, false))
      (hframe : heard.machine.frame = .ok () m₁)
      (hrefresh : Machine.onScreen Screen.refresh m₁ = .ok () m₂)
      (rest : Course p host clock (heard.shown (p.frameEnd (clock s.readings)) m₂) waits log
        s') :
      Course p host clock s [] (log.cons ⟨s.opening (clock s.readings), waits⟩) s'

/-- The first readings of each run, however many of them there are, take a course. -/
theorem run_course (p : Pacing) (host : Host) (clock : Nat → Rat) (limit : Nat)
    (hs : s.machine.Intact) :
    ∃ waits log s', (s.waitingUntil = none → waits = []) ∧
      (∀ more, run (onReading p host) clock (limit + more) s =
        log.ending.resume (run (onReading p host) clock more) s') ∧
      Course p host clock s waits log s' := by
  -- The run is taken apart from its first reading on. The times that the rest of the run reads before
  -- its own first pass are the waits of the round before it.
  induction limit generalizing s with
  | zero =>
    refine ⟨[], ⟨[], .exhausted⟩, s, fun _ => rfl, fun more => ?_, .exhausted s⟩
    rw [Nat.zero_add]
    rfl
  | succ limit ih =>
    cases hwait : s.waitingUntil with
    | some frameEnd =>
      have hreading : onReading p host (clock s.readings) s = _ :=
        onReadingWith_of_waiting Machine.frame hwait p host (clock s.readings)
      have hnext : (s.waited (clock s.readings) frameEnd).machine.Intact := hs
      obtain ⟨waits, log, s', -, hrun, hcourse⟩ := ih hnext
      refine ⟨clock s.readings :: waits, log, s', nofun, fun more => ?_, .wait hwait hcourse⟩
      rw [Nat.succ_add, run_of_ok hreading]
      exact hrun more
    | none =>
      have hreading : onReading p host (clock s.readings) s = _ :=
        onReadingWith_of_not_waiting Machine.frame hwait p host (clock s.readings)
      rcases hask : (s.opened p (clock s.readings)).ask host with ⟨heard, quit⟩
      rw [hask] at hreading
      cases quit with
      | true =>
        refine ⟨[], _, heard, fun _ => rfl, fun more => ?_, .quit hwait hask⟩
        rw [Nat.succ_add]
        exact run_of_quit hreading
      | false =>
        have hintact := (heard_of_ask hask).intact hs
        cases hframe : heard.machine.frame with
        | error e m₁ =>
          obtain ⟨m₂, hrefresh, hshow⟩ :=
            showFrame_of_error hframe (intact_of_frame_error hintact hframe)
          have hfails : onReading p host (clock s.readings) s =
              .error e { heard with machine := m₂, begun := heard.begun + 1 } := by
            rw [hreading]
            simp [runFrame, hshow]
          refine ⟨[], _, _, fun _ => rfl, fun more => ?_, .failed hwait hask hframe hrefresh⟩
          rw [Nat.succ_add]
          exact run_of_error hfails
        | ok _ m₁ =>
          obtain ⟨m₂, hrefresh, hshow, hafter⟩ :=
            showFrame_of_ok hframe (hintact.of_frame hframe).1
          have hcompleted : onReading p host (clock s.readings) s =
              .ok false (heard.shown (p.frameEnd (clock s.readings)) m₂) := by
            rw [hreading]
            simp [runFrame, hshow, shown]
          have hnext : (heard.shown (p.frameEnd (clock s.readings)) m₂).machine.Intact := hafter
          obtain ⟨waits, log, s', -, hrun, hcourse⟩ := ih hnext
          refine ⟨[], log.cons ⟨s.opening (clock s.readings), waits⟩, s', fun _ => rfl,
            fun more => ?_, .shown hwait hask hframe hrefresh hcourse⟩
          rw [Nat.succ_add, run_of_ok hcompleted]
          exact hrun more

theorem Course.accounts {waits : List Rat} {log : Log}
    (h : Course p host clock s waits log s') : Accounts p host clock s waits log s' := by
  induction h with
  | exhausted s => exact .exhausted s
  | wait _ _ ih => exact ih.wait
  | quit _ hask => exact .quit (heard_of_ask hask)
  | failed _ hask hframe hrefresh => exact .failed (heard_of_ask hask) hframe hrefresh
  | shown _ hask hframe hrefresh _ ih => exact .shown (heard_of_ask hask) hframe hrefresh ih

/-- Each run has a log that accounts for its first readings, however many of them there are. -/
theorem run_accounts (p : Pacing) (host : Host) (clock : Nat → Rat) (limit : Nat)
    (hs : s.machine.Intact) :
    ∃ waits log s', (s.waitingUntil = none → waits = []) ∧
      (∀ more, run (onReading p host) clock (limit + more) s =
        log.ending.resume (run (onReading p host) clock more) s') ∧
      Accounts p host clock s waits log s' := by
  obtain ⟨waits, log, s', hwaits, hrun, hcourse⟩ := run_course p host clock limit hs
  exact ⟨waits, log, s', hwaits, hrun, hcourse.accounts⟩

/-! ### Seconds -/

/-- Below `2 ^ 53` seconds, the next whole second is a double. -/
theorem spaces_binary64 (h0 : 0 ≤ time) (h : time < 2 ^ 53) : Spaces .binary64 time := by
  obtain ⟨n, hn⟩ : ∃ n : Nat, ⌊time⌋ = n := Int.eq_ofNat_of_zero_le (Int.floor_nonneg.2 h0)
  have htruncate : Pacing.truncate time = n := by
    rw [Pacing.truncate, if_neg (not_lt.2 h0)]
    exact hn
  have hbelow : (n : Rat) < 2 ^ 53 := by
    have hfloor := Int.floor_le time
    rw [hn] at hfloor
    exact hfloor.trans_lt h
  have hle : n + 1 ≤ 2 ^ 53 := by exact_mod_cast hbelow
  have hnext : Pacing.binary64.nextReport time = n + 1 := by
    have hdouble := Number.binary64_natCast hle
    rw [Pacing.nextReport, htruncate]
    push_cast at hdouble ⊢
    exact hdouble
  rw [Spaces, hnext, hn]
  exact le_rfl

/-- **Every frame and every instruction is accounted for once.** The first readings of a run, any
number of them, make their calls in rounds: the host is asked and does not want to quit, one frame
is run, and the display is refreshed once. After these either the host wants to quit, and the run is
over with no frame any more; or a frame fails, and the run is over with its error once the display
is refreshed; or the run goes on, if the clock can still be read. In each case the frames reported
and those pending are those completed, and the same goes for instructions. As long as the clock
stays below `2 ^ 53` seconds, where doubles tell whole seconds apart, no two reports fall in the same
second. -/
theorem accounts_of_attainable {m : Machine} (hm : m.Attainable) (host : Host)
    (clock : Nat → Rat) (limit : Nat) :
    ∃ (log : Log) (s : Session) (asked : Nat),
      run (onReading .binary64 host) clock limit (.start m) =
          log.ending.resume (throw .clockExhausted) s ∧
        (∀ more, run (onReading .binary64 host) clock (limit + more) (.start m) =
          log.ending.resume (run (onReading .binary64 host) clock more) s) ∧
        Trail host clock log.calls ⟨m, 0, 0⟩ ⟨s.machine, asked, s.readings⟩ ∧
        s.reports.reverse = log.reports.map Prod.snd ∧
        frameSum log.reports + s.pendingFrames = log.rounds.length ∧
        instructionSum log.reports + s.pending.instructions =
          (s.machine.completed : Int) - m.completed ∧
        ((∀ k, 0 ≤ clock k ∧ clock k < 2 ^ 53) →
          log.reports.Pairwise fun r r' => ⌊r.1⌋ < ⌊r'.1⌋) := by
  obtain ⟨waits, log, s, hwaits, hrun, h⟩ :=
    run_accounts (s := .start m) .binary64 host clock limit hm.intact
  obtain rfl : waits = [] := hwaits rfl
  obtain ⟨asked, htrail⟩ := h.trail
  refine ⟨log, s, asked, hrun 0, hrun, htrail, ?_, ?_, ?_, fun hclock => ?_⟩
  · rw [h.reports]
    simp [start]
  · have hframes := h.frames
    simpa [start] using hframes
  · have hinstructions := h.instructions
    simpa [start, pending] using hinstructions
  · exact (h.spaced fun k => spaces_binary64 (hclock k).1 (hclock k).2).seconds

theorem accounts_of_jump :
    let clock : Nat → Rat := fun k => (min k 600 : Nat)
    (Machine.standard [0x12, 0x00]).Attainable ∧ (∀ k, 0 ≤ clock k ∧ clock k < 2 ^ 53) ∧
      ∃ (log : Log) (s : Session),
        run (onReading .binary64 .idle) clock 100 (.start (Machine.standard [0x12, 0x00])) =
            log.ending.resume (throw .clockExhausted) s ∧
          frameSum log.reports + s.pendingFrames = log.rounds.length ∧
          log.reports.Pairwise fun r r' => ⌊r.1⌋ < ⌊r'.1⌋ := by
  intro clock
  have hm : (Machine.standard [0x12, 0x00]).Attainable :=
    (Machine.reachable_standard [0x12, 0x00] (by decide)).attainable
  have hclock : ∀ k, 0 ≤ clock k ∧ clock k < 2 ^ 53 := by
    intro k
    have hle : min k 600 < 2 ^ 53 := (min_le_right k 600).trans_lt (by decide)
    have hbelow : ((min k 600 : Nat) : Rat) < 2 ^ 53 := by exact_mod_cast hle
    exact ⟨Nat.cast_nonneg _, hbelow⟩
  obtain ⟨log, s, asked, hrun, -, -, -, hframes, -, hseconds⟩ :=
    accounts_of_attainable hm .idle clock 100
  exact ⟨hm, hclock, log, s, hrun, hframes, hseconds hclock⟩

/-- From `2 ^ 53` seconds on, the next whole second may be rounded down to the present one: on a
clock that stands still there, the figures are reported again in each pass. -/
theorem reports_in_one_second :
    let clock : Nat → Rat := fun _ => 2 ^ 53
    (∀ k, 0 ≤ clock k) ∧ Monotone clock ∧
      ((Machine.standard [0x12, 0x00]).setCycles 0).Attainable ∧
      (Action.state (run (onReading .binary64 .idle) clock 3
        (.start ((Machine.standard [0x12, 0x00]).setCycles 0)))).reports = [⟨1, 0⟩, ⟨0, 0⟩] := by
  refine ⟨fun _ => by norm_num, monotone_const, ?_, by decide +kernel⟩
  exact (Machine.reachable_standard [0x12, 0x00] (by decide)).attainable.after (.setCycles 0)

end Chip8.Session
