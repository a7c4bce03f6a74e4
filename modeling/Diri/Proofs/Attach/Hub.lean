/-
The sinks of a hub converge.

The pump remembers the signature it last looked at, and the invariant is about that
look: a sink whose latest frames were made from the same picture shows that picture,
once it has the frames the pump still holds; and while the session has that signature,
the session and every registered sink are at that picture.  A quiescent pump has no
frames and the session's signature, so every registered sink shows the session.

Three things can break it, and `Ready` rules them out: a sink that registers with a seed
the pump has moved past, an output that changes what is visible and not the signature,
and a sample whose update leaves out a row, or the modes, that some sink does not have.
-/
import Diri.Proofs.Attach.Session

namespace Diri

open List Option

/-- A picture whose cells fill its size. -/
def Picture.Filled (picture : Picture) : Prop :=
  picture.cells.length = picture.size.1 * picture.size.2

theorem Picture.Filled.applyFrame {picture : Picture} (h : picture.Filled) (frame : AttachFrame) :
    (picture.applyFrame frame).Filled := by
  cases frame with
  | grid update => exact update.length_apply picture.cells
  | modes altScreen mouseReporting => exact h

theorem Picture.Filled.applyFrames {picture : Picture} (h : picture.Filled)
    (frames : List AttachFrame) : (picture.applyFrames frames).Filled := by
  induction frames generalizing picture with
  | nil => exact h
  | cons frame rest ih => exact ih (h.applyFrame frame)

def GridSignature.modes (signature : GridSignature) : AttachModes :=
  (signature.altScreen, signature.mouseReporting)

/-- What the pump knows, and what follows for the sinks. -/
structure PumpInv (hub : AttachHub) (pump : Pump) : Prop where
  modes : pump.lastModes = some pump.signature.modes
  seen : pump.seen.applyFrames pump.frames = pump.seen
  made : ∀ sink ∈ hub.sinks, sink.made = pump.seen → sink.shows.applyFrames pump.frames = pump.seen
  current : hub.session.signature = pump.signature →
    ∀ sink ∈ hub.sinks, hub.session.picture = pump.seen ∧ sink.made = pump.seen

/-- A sink that was seeded, and waits to be registered. -/
structure Seeded (entry : Sink × AttachmentSeed) : Prop where
  shows : entry.1.shows = entry.1.made
  filled : entry.1.shows.Filled
  modes : entry.2.modes = entry.2.signature.modes

structure HubInv (hub : AttachHub) : Prop where
  session : hub.session.Formed
  seeded : ∀ entry ∈ hub.seeded, Seeded entry
  filled : ∀ sink ∈ hub.sinks, sink.shows.Filled
  idle : hub.pump = none → hub.sinks = []
  pump : ∀ pump, hub.pump = some pump → PumpInv hub pump

/-! ### The condition -/

/-- The pump a sink is served by, once it is registered. -/
def AttachHub.pumpFor (hub : AttachHub) (entry : Sink × AttachmentSeed) : Pump :=
  hub.pump.getD (.start entry.2 entry.1.made)

/-- The step does not lose anything. -/
def AttachHub.Ready (hash : Hasher) (hub : AttachHub) : AttachStep → Prop
  | .register id =>
    ∀ entry, entry ∈ hub.seeded.find? (fun entry => entry.1.id = id) →
      hub.session.signature = (hub.pumpFor entry).signature →
        hub.session.picture = (hub.pumpFor entry).seen ∧
        entry.1.made = (hub.pumpFor entry).seen
  | .output output =>
    ∀ pump, pump ∈ hub.pump → (hub.session.output hash output).signature = pump.signature →
      ∀ sink ∈ hub.sinks,
        (hub.session.output hash output).picture = pump.seen ∧ sink.made = pump.seen
  | .pumpSample =>
    ∀ pump, pump ∈ hub.pump → hub.session.signature ≠ pump.signature →
      ∀ sink ∈ hub.sinks, hub.session.Covers sink.shows ∧
        (pump.lastModes = some hub.session.modes → sink.shows.modes = hub.session.modes)
  | _ => True

instance AttachHub.Ready.decidable (hash : Hasher) (hub : AttachHub) (step : AttachStep) :
    Decidable (hub.Ready hash step) := by
  cases step <;> unfold AttachHub.Ready <;> infer_instance

namespace HubInv

variable {hub hub' : AttachHub}

/-! ### One lemma for each step -/

theorem output (h : HubInv hub) (hash : Hasher) {output : GridOutput} (hdecoded : output.Decoded)
    (hready : hub.Ready hash (.output output)) :
    HubInv { hub with session := hub.session.output hash output } where
  session := h.session.output hash hdecoded
  seeded := h.seeded
  filled := h.filled
  idle := h.idle
  pump pump hpump :=
    have hinv := h.pump pump hpump
    ⟨hinv.modes, hinv.seen, hinv.made, hready pump hpump⟩

theorem gridFrame_ok {update : GridUpdate} (h : ∃ bytes, update.encodedBytes = .ok bytes) :
    gridFrame update = [.grid update] := by
  obtain ⟨bytes, hbytes⟩ := h
  unfold gridFrame
  rw [hbytes]

theorem applyFrames_modes {session : Session} {held : Picture} {update : GridUpdate}
    (h : held.applyFrame (.grid update) = { session.picture with modes := held.modes }) :
    held.applyFrames [.grid update, .modes session.modes.1 session.modes.2] = session.picture := by
  unfold Picture.applyFrames
  rw [foldl_cons, foldl_cons, foldl_nil, h]
  rfl

section
variable (h : HubInv hub)
include h

theorem seed (id : Nat) : HubInv (hub.seed id) := by
  have hseed := h.session.attachmentSeed
  have hshows : Picture.applyFrames [.grid hub.session.attachmentSeed.grid,
      .modes hub.session.attachmentSeed.modes.1 hub.session.attachmentSeed.modes.2] {}
      = hub.session.picture := by
    rw [hseed.modes]
    exact applyFrames_modes (hseed.lands {})
  unfold AttachHub.seed
  simp only [gridFrame_ok hseed.encodes]
  refine ⟨h.session, fun entry hentry => ?_, h.filled, h.idle, fun pump hpump => ?_⟩
  · rcases mem_append.mp hentry with hold | hnew
    · exact h.seeded entry hold
    · obtain rfl := mem_singleton.mp hnew
      refine ⟨hshows, ?_, ?_⟩
      · show Picture.Filled (Picture.applyFrames _ _)
        rw [cons_append, nil_append, hshows]
        exact h.session.length_picture
      · show hub.session.attachmentSeed.modes = hub.session.attachmentSeed.signature.modes
        rw [hseed.modes, hseed.signature]
        exact hub.session.modes_eq
  · have hinv := h.pump pump hpump
    exact ⟨hinv.modes, hinv.seen, hinv.made, hinv.current⟩

theorem pumpFor {entry : Sink × AttachmentSeed} (hentry : Seeded entry)
    (hready : hub.session.signature = (hub.pumpFor entry).signature →
      hub.session.picture = (hub.pumpFor entry).seen ∧ entry.1.made = (hub.pumpFor entry).seen) :
    PumpInv { hub with sinks := hub.sinks ++ [entry.1] } (hub.pumpFor entry) := by
  have hbefore : PumpInv hub (hub.pumpFor entry) := by
    unfold AttachHub.pumpFor
    cases hpump : hub.pump with
    | some pump => exact h.pump pump hpump
    | none =>
      have hnone := h.idle hpump
      refine ⟨congrArg some hentry.modes, rfl, fun sink hsink => ?_, fun _ sink hsink => ?_⟩
      · rw [hnone] at hsink
        cases hsink
      · rw [hnone] at hsink
        cases hsink
  refine ⟨hbefore.modes, hbefore.seen, fun sink hsink hmade => ?_, fun hsame sink hsink => ?_⟩
  · rcases mem_append.mp hsink with hold | hnew
    · exact hbefore.made sink hold hmade
    · rw [mem_singleton.mp hnew] at hmade ⊢
      rw [hentry.shows, hmade]
      exact hbefore.seen
  · rcases mem_append.mp hsink with hold | hnew
    · exact hbefore.current hsame sink hold
    · rw [mem_singleton.mp hnew]
      exact hready hsame

theorem register (hash : Hasher) {id : Nat}
    (hready : hub.Ready hash (.register id)) (hstep : hub.register id = some hub') :
    HubInv hub' := by
  obtain ⟨entry, hfind, rfl⟩ := map_eq_some_iff.mp hstep
  have hentry := h.seeded entry (mem_of_find?_eq_some hfind)
  refine ⟨h.session, fun other hother => h.seeded other (mem_of_mem_eraseP hother),
    fun sink hsink => ?_, (fun hnone => by cases hnone), fun pump hpump => ?_⟩
  · rcases mem_append.mp hsink with hold | hnew
    · exact h.filled sink hold
    · rw [mem_singleton.mp hnew]
      exact hentry.filled
  · obtain ⟨⟩ := hpump
    have hinv := h.pumpFor hentry (hready entry hfind)
    exact ⟨hinv.modes, hinv.seen, hinv.made, hinv.current⟩

theorem deregister (id : Nat) : HubInv (hub.deregister id) where
  session := h.session
  seeded := h.seeded
  filled sink hsink := h.filled sink (mem_of_mem_filter hsink)
  idle hnone := by
    show hub.sinks.filter _ = []
    rw [h.idle hnone]
    rfl
  pump pump hpump :=
    have hinv := h.pump pump hpump
    ⟨hinv.modes, hinv.seen, fun sink hsink => hinv.made sink (mem_of_mem_filter hsink),
      fun hsame sink hsink => hinv.current hsame sink (mem_of_mem_filter hsink)⟩

theorem pumpExit (hstep : hub.pumpExit = some hub') : HubInv hub' := by
  obtain ⟨pump, hpump, hstep⟩ := bind_eq_some_iff.mp hstep
  split at hstep <;> obtain ⟨⟩ := hstep
  next hempty =>
  exact ⟨h.session, h.seeded, h.filled, fun _ => hempty.2, fun pump hpump => by cases hpump⟩

theorem pumpBroadcast (gone : List Nat)
    (hstep : hub.pumpBroadcast gone = some hub') : HubInv hub' := by
  obtain ⟨pump, hpump, rfl⟩ := map_eq_some_iff.mp hstep
  have hinv := h.pump pump hpump
  have hsinks : ∀ sink ∈ (hub.sinks.map fun sink =>
      { sink with shows := sink.shows.applyFrames pump.frames }).filter
        (fun sink => sink.id ∉ gone), ∃ before ∈ hub.sinks, sink =
          { before with shows := before.shows.applyFrames pump.frames } := by
    intro sink hsink
    obtain ⟨before, hbefore, rfl⟩ := mem_map.mp (mem_of_mem_filter hsink)
    exact ⟨before, hbefore, rfl⟩
  refine ⟨h.session, h.seeded, fun sink hsink => ?_, (fun hnone => by cases hnone),
    fun pump' hpump' => ?_⟩
  · obtain ⟨before, hbefore, rfl⟩ := hsinks sink hsink
    exact (h.filled before hbefore).applyFrames pump.frames
  obtain ⟨⟩ := hpump'
  refine ⟨hinv.modes, rfl, fun sink hsink hmade => ?_, fun hsame sink hsink => ?_⟩
  · obtain ⟨before, hbefore, rfl⟩ := hsinks sink hsink
    exact hinv.made before hbefore hmade
  · obtain ⟨before, hbefore, rfl⟩ := hsinks sink hsink
    exact hinv.current hsame before hbefore

end

end HubInv

/-! ### Sampling -/

/-- The frames of a sample that reports an update. -/
def AttachHub.sampled (hub : AttachHub) (pump : Pump) (update : GridUpdate) : List AttachFrame :=
  .grid update :: if pump.lastModes.any (· ≠ hub.session.modes) then
    [.modes hub.session.modes.1 hub.session.modes.2] else []

namespace HubInv

variable {hub hub' : AttachHub}

theorem pumpSample_of_eq {pump : Pump} (hinv : PumpInv hub pump) (hpump : hub.pump = some pump)
    (hframes : pump.frames = []) (hsame : hub.session.signature = pump.signature) :
    hub.pumpSample = some hub := by
  have hmodes : pump.lastModes = some hub.session.modes := by
    rw [hinv.modes, ← hsame, hub.session.modes_eq]
    rfl
  have hpump' : some { pump with lastModes := some hub.session.modes, frames := [] } = hub.pump := by
    rw [hpump, ← hmodes, ← hframes]
  simp only [AttachHub.pumpSample, hpump, ne_eq, decide_not, ite_not, bind_some, hframes,
    ↓reduceIte, Session.gridUpdate_of_eq hsame, isSome_none, Bool.false_eq_true, toList_none,
    flatMap_nil, hmodes, any_some, decide_true, Bool.not_true, append_nil, some.injEq]
  rw [hpump']

theorem pumpSample_of_ne {pump : Pump} (hpump : hub.pump = some pump) (hframes : pump.frames = [])
    {update : GridUpdate} {after : Session}
    (hsample : hub.session.gridUpdateIfChanged pump.signature
      = (some update, hub.session.signature, after))
    (hreports : hub.session.Reports update after) :
    hub.pumpSample = some { hub with
      session := after
      sinks := hub.sinks.map fun sink => { sink with made := hub.session.picture }
      pump := some {
        signature := hub.session.signature
        lastModes := some hub.session.modes
        frames := hub.sampled pump update
        seen := hub.session.picture } } := by
  have hmodes : after.modes = hub.session.modes := congrArg Picture.modes hreports.picture
  simp only [AttachHub.pumpSample, hpump, bind_some, hframes, hsample, hreports.picture,
    hmodes, toList_some, flatMap_cons, flatMap_nil, append_nil,
    gridFrame_ok hreports.encodes, isSome_some, AttachHub.sampled]
  rfl

theorem applyFrames_sampled {pump : Pump} (hmodes : pump.lastModes.isSome = true)
    {update : GridUpdate} {after : Session} (hreports : hub.session.Reports update after)
    {held : Picture} (hfilled : held.Filled) (hcovers : hub.session.Covers held)
    (hheld : pump.lastModes = some hub.session.modes → held.modes = hub.session.modes) :
    held.applyFrames (hub.sampled pump update) = hub.session.picture := by
  have hlands := hreports.lands held hfilled hcovers
  obtain ⟨previous, hprevious⟩ := isSome_iff_exists.mp hmodes
  unfold AttachHub.sampled
  by_cases hchanged : previous = hub.session.modes
  · have hsame : pump.lastModes = some hub.session.modes := by rw [hprevious, hchanged]
    rw [if_neg (by simp [hsame])]
    show held.applyFrame (.grid update) = _
    rw [hlands, hheld hsame]
    rfl
  · rw [if_pos (by simp [hprevious, hchanged])]
    exact applyFrames_modes hlands

theorem pumpSample (h : HubInv hub) (hash : Hasher) (hready : hub.Ready hash .pumpSample)
    (hstep : hub.pumpSample = some hub') : HubInv hub' := by
  cases hpump : hub.pump with
  | none =>
    rw [AttachHub.pumpSample, hpump] at hstep
    cases hstep
  | some pump =>
    have hinv := h.pump pump hpump
    have hframes : pump.frames = [] := by
      by_contra hne
      rw [AttachHub.pumpSample, hpump, bind_some, if_pos hne] at hstep
      cases hstep
    by_cases hsame : hub.session.signature = pump.signature
    · rw [pumpSample_of_eq hinv hpump hframes hsame] at hstep
      rw [← some.inj hstep]
      exact h
    obtain ⟨update, after, hsample, hreports⟩ := h.session.reports_of_ne hsame
    rw [pumpSample_of_ne hpump hframes hsample hreports] at hstep
    obtain ⟨⟩ := hstep
    have hmodes : pump.lastModes.isSome = true := by
      rw [hinv.modes]
      rfl
    have hsinks : ∀ sink ∈ hub.sinks.map fun sink => { sink with made := hub.session.picture },
        ∃ before ∈ hub.sinks, { before with made := hub.session.picture } = sink :=
      fun sink hsink => mem_map.mp hsink
    refine ⟨hreports.formed, h.seeded, fun sink hsink => ?_, (fun hnone => by cases hnone),
      fun pump' hpump' => ?_⟩
    · obtain ⟨before, hbefore, rfl⟩ := hsinks sink hsink
      exact h.filled before hbefore
    obtain ⟨⟩ := hpump'
    refine ⟨congrArg some hub.session.modes_eq, ?_, fun sink hsink _ => ?_, fun _ sink hsink => ?_⟩
    · exact applyFrames_sampled hmodes hreports h.session.length_picture
        hub.session.covers_picture fun _ => rfl
    · obtain ⟨before, hbefore, rfl⟩ := hsinks sink hsink
      obtain ⟨hcovers, hheld⟩ := hready pump hpump hsame before hbefore
      exact applyFrames_sampled hmodes hreports (h.filled before hbefore) hcovers hheld
    · obtain ⟨before, hbefore, rfl⟩ := hsinks sink hsink
      exact ⟨hreports.picture, rfl⟩

/-! ### Runs -/

theorem step (h : HubInv hub) (hash : Hasher) {step : AttachStep} (hready : hub.Ready hash step)
    (hstep : attachStep hash hub step = some hub') : HubInv hub' := by
  cases step with
  | output output =>
    unfold attachStep at hstep
    simp only at hstep
    split at hstep <;> obtain ⟨⟩ := hstep
    next hdecoded =>
    exact h.output hash hdecoded hready
  | seed id =>
    obtain ⟨⟩ := hstep
    exact h.seed id
  | register id => exact h.register hash hready hstep
  | pumpSample => exact h.pumpSample hash hready hstep
  | pumpBroadcast gone => exact h.pumpBroadcast gone hstep
  | pumpExit => exact h.pumpExit hstep
  | deregister id =>
    obtain ⟨⟩ := hstep
    exact h.deregister id

theorem converged (h : HubInv hub) (hquiescent : hub.Quiescent) : hub.Converged := by
  obtain ⟨pump, hpump, hframes, hnone, -⟩ := hquiescent
  have hinv := h.pump pump hpump
  have hsame : hub.session.signature = pump.signature := by
    by_contra hne
    obtain ⟨update, after, hsample, -⟩ := h.session.reports_of_ne hne
    rw [hsample] at hnone
    cases hnone
  intro sink hsink
  obtain ⟨hpicture, hmade⟩ := hinv.current hsame sink hsink
  have hshows := hinv.made sink hsink hmade
  rw [hframes] at hshows
  rw [hpicture]
  exact hshows

end HubInv

/-- A session as it starts, its emulator with its first screen. -/
def Session.start (cols rows : UInt16) (term : Term) (remote : Bool) : Session where
  screen := HeadlessScreen.new cols.toNat rows.toNat term
  remoteGrid := if remote then some { mirror := {} } else none

/-- A hub that nobody has attached to. -/
def AttachHub.start (session : Session) : AttachHub where
  session := session

theorem HubInv.start (cols rows : UInt16) (term : Term) (remote : Bool) :
    HubInv (.start (.start cols rows term remote)) where
  session := by
    refine ⟨.new cols.toNat_lt rows.toNat_lt term, fun live hlive => ?_⟩
    obtain ⟨hgrid, hsome⟩ := Session.liveRemote_eq_some.mp hlive
    cases remote with
    | false => cases hgrid
    | true =>
      rw [← Option.some.inj hgrid] at hsome
      cases hsome
  seeded _ hentry := by cases hentry
  filled _ hsink := by cases hsink
  idle _ := rfl
  pump _ hpump := by cases hpump

/--
**Attached clients converge.**  In every run of the hub that loses nothing, whatever
order the steps of the sinks, the pump and the session come in: when the pump is
quiescent, every registered sink shows the session.
-/
theorem attach_converges (hash : Hasher) (cols rows : UInt16) (term : Term) (remote : Bool)
    (steps : List AttachStep) (hub : AttachHub)
    (hrun : partialRun (attachStep hash) (.start (.start cols rows term remote)) steps = some hub)
    (hready : Meets (AttachHub.Ready hash) (attachStep hash)
      (.start (.start cols rows term remote)) steps)
    (hquiescent : hub.Quiescent) : hub.Converged := by
  have hinv : HubInv hub :=
    hready.invariant (fun _ _ _ h hcond hstep => h.step hash hcond hstep)
      (.start cols rows term remote) hrun
  exact hinv.converged hquiescent

/-! ### Clients that stay behind -/

/-- Output that fills a screen with a character. -/
def fills (c : Char) (fg : TermColor) : AttachStep :=
  .output (.feed ⟨.filled ⟨c, fg, .defaultInverted, 0⟩, none, true⟩)

/-- A hash that tells single characters apart. -/
def sumHash : Hasher := fun chars _ => (chars.map Char.toNat).sum + 1

def oneCell : Session := .start 1 1 (.filled ⟨'A', .default, .defaultInverted, 0⟩) false

/-- The second client attaches between a sample and its broadcast. -/
def convergingRun : List AttachStep :=
  [.seed 1, .register 1, .pumpSample, .pumpBroadcast [], fills 'B' .default, .pumpSample, .seed 2,
    .register 2, .pumpBroadcast [], fills 'C' .default, .pumpSample, .pumpBroadcast []]

theorem attach_converges_two_clients :
    ∃ hub, partialRun (attachStep sumHash) (.start oneCell) convergingRun = some hub ∧
      hub.Quiescent ∧ hub.Converged :=
  have hquiescent : AttachHub.Quiescent _ := ⟨_, rfl, rfl, rfl, rfl⟩
  ⟨_, rfl, hquiescent, attach_converges sumHash 1 1 (.filled ⟨'A', .default, .defaultInverted, 0⟩)
    false convergingRun _ rfl (by decide +kernel) hquiescent⟩

/-- The pump goes on between the seed and the registration of the second client. -/
def lateRun : List AttachStep :=
  [.seed 1, .register 1, .seed 2, fills 'B' .default, .pumpSample, .pumpBroadcast [], .register 2]

/-- The second client is seeded with `C`, and the row goes back to the baseline. -/
def revertedRun : List AttachStep :=
  [.seed 1, .register 1, fills 'B' .default, .pumpSample, .pumpBroadcast [], fills 'C' .default,
    .seed 2, .register 2, fills 'B' .default, .pumpSample, .pumpBroadcast []]

/-- The same characters in another colour. -/
def recolouredRun : List AttachStep :=
  [.seed 1, .register 1, fills 'B' .default, .pumpSample, .pumpBroadcast [], fills 'B' (.ansi 1),
    .pumpSample, .pumpBroadcast []]

/-- Some registered sink does not show the session, and the pump is quiescent. -/
def AttachHub.Stale (hub : AttachHub) : Prop := hub.Quiescent ∧ ¬hub.Converged

/--
**A client can stay behind.**  The pump serves a client that registers late from its own
signature and not from the client's seed; a seed leaves the diff baseline as it is; and
the signature does not see colours.
-/
theorem client_stays_behind :
    (∃ hub, partialRun (attachStep sumHash) (.start oneCell) lateRun = some hub ∧ hub.Stale) ∧
    (∃ hub, partialRun (attachStep sumHash) (.start oneCell) revertedRun = some hub ∧ hub.Stale) ∧
    ∃ hub, partialRun (attachStep sumHash) (.start oneCell) recolouredRun = some hub ∧ hub.Stale :=
  ⟨⟨_, rfl, ⟨_, rfl, rfl, rfl, rfl⟩, by decide +kernel⟩,
    ⟨_, rfl, ⟨_, rfl, rfl, rfl, rfl⟩, by decide +kernel⟩,
    _, rfl, ⟨_, rfl, rfl, rfl, rfl⟩, by decide +kernel⟩

end Diri
