/-
The clients of a Holder show its screen.

A delta leaves out the rows that equal the diff baseline, and `fullSnapshot` does not
touch the baseline.  So a delta lands only if the last picture queued to the connection
has those rows, and if no sequence number was spent on another connection since.  That
is `Covered`, a condition on the Holder when it emits; under it the invariant survives
every step, and every client accepts every message and shows what the screen showed.
-/
import Diri.Proofs.Grid.Connection

namespace Diri

open List Option

/-- The connection's last picture has the size of the screen, if it has the last sequence. -/
def Connection.Current (c : Connection) (sequence : Nat) (size : Nat × Nat) : Prop :=
  ∀ reached view, c.last = some (reached, view) → reached ≤ sequence ∧
    (reached = sequence → reached < maxU64 → view.size = size ∧ view.cells.length = size.1 * size.2)

/-- A connection that may be the Holder's. -/
structure Serving (holder : Holder) (c : Connection) : Prop where
  sound : c.Sound
  current : c.Current holder.snapshotSequence holder.screen.view.size

structure HolderInv (holder : Holder) : Prop where
  sized : holder.screen.Sized
  sequence_le : holder.snapshotSequence ≤ maxU64
  serves : ∀ c, holder.connection = some c → Serving holder c
  past : ∀ link ∈ holder.past, client.Lands link.mirror.held link.wire

theorem saturatingSucc_le (n : Nat) : saturatingSucc n ≤ maxU64 := Nat.min_le_right _ _

theorem saturatingSucc_of_lt {n : Nat} (h : n < maxU64) : saturatingSucc n = n + 1 :=
  Nat.min_eq_left h

theorem le_saturatingSucc {n : Nat} (h : n ≤ maxU64) : n ≤ saturatingSucc n :=
  Nat.le_min.mpr ⟨Nat.le_succ n, h⟩

theorem Connection.Current.succ {c : Connection} {sequence : Nat} {size : Nat × Nat}
    (h : c.Current sequence size) (hle : sequence ≤ maxU64) (size' : Nat × Nat) :
    c.Current (saturatingSucc sequence) size' := by
  intro reached view hlast
  have hreached := (h reached view hlast).1
  refine ⟨Nat.le_trans hreached (le_saturatingSucc hle), fun heq hlt => ?_⟩
  rw [heq] at hreached hlt
  have hbelow : sequence < maxU64 := Nat.lt_of_le_of_lt (le_saturatingSucc hle) hlt
  rw [saturatingSucc_of_lt hbelow] at hreached
  exact absurd hreached (Nat.not_le.mpr (Nat.lt_succ_self sequence))

theorem Connection.Current.of_last {c : Connection} {screen : HeadlessScreen} {sequence : Nat}
    (hlast : c.last = some (sequence, screen.view)) : c.Current sequence screen.view.size := by
  intro reached view h
  obtain ⟨rfl, rfl⟩ := Prod.mk.inj (some.inj (hlast.symm.trans h))
  exact ⟨Nat.le_refl _, fun _ _ => ⟨rfl, screen.length_cells⟩⟩

namespace HolderInv

variable {holder : Holder}

section
variable (h : HolderInv holder)
include h

/-- A screen drawn on, or a sequence number spent, with the connection in place. -/
theorem bump {screen : HeadlessScreen} (hsized : screen.Sized) : HolderInv { holder with
      screen := screen
      snapshotSequence := saturatingSucc holder.snapshotSequence } where
  sized := hsized
  sequence_le := saturatingSucc_le _
  serves c hc := ⟨(h.serves c hc).sound, (h.serves c hc).current.succ h.sequence_le _⟩
  past := h.past

theorem draw {screen : HeadlessScreen} (hsized : screen.Sized)
    (hgeometry : screen.geometry = holder.screen.geometry) :
    HolderInv { holder with screen := screen } where
  sized := hsized
  sequence_le := h.sequence_le
  serves c hc := by
    refine ⟨(h.serves c hc).sound, ?_⟩
    have hsize : screen.view.size = holder.screen.view.size := by
      rw [HeadlessScreen.view_size, HeadlessScreen.view_size, hgeometry]
    show c.Current holder.snapshotSequence screen.view.size
    rw [hsize]
    exact (h.serves c hc).current
  past := h.past

theorem connect {c : Connection} (hserves : Serving holder c) :
    HolderInv { holder with connection := some c } where
  sized := h.sized
  sequence_le := h.sequence_le
  serves c' hc := by
    obtain ⟨⟩ := hc
    exact ⟨hserves.sound, hserves.current⟩
  past := h.past

theorem dropConnection {c : Connection} (hsound : c.Sound) :
    HolderInv (holder.dropConnection c) where
  sized := h.sized
  sequence_le := h.sequence_le
  serves _ hc := by cases hc
  past link hlink := by
    rcases List.mem_append.mp hlink with hold | hnew
    · exact h.past link hold
    · obtain rfl := List.mem_singleton.mp hnew
      exact hsound.lands.cut

end

end HolderInv

/-! ### Queueing -/

variable {holder : Holder}

theorem Serving.queue_other {c c' : Connection} (h : Serving holder c)
    {payloadLength : Nat} {shown : View} (hqueue : c.queue (.other payloadLength) shown = .ok c') :
    Serving holder c' ∧ c'.epoch = c.epoch := by
  obtain ⟨hsound, hepoch, -, hlast⟩ := h.sound.queue_other hqueue
  refine ⟨⟨hsound, ?_⟩, hepoch⟩
  unfold Connection.Current
  rw [hlast]
  exact h.current

theorem Serving.queueSnapshot (hsized : holder.screen.Sized)
    {c c' : Connection} (hsound : c.Sound) (hqueue : holder.queueSnapshot c = .ok c') :
    Serving holder c' ∧ c'.epoch = c.epoch := by
  have hgrid : (holder.gridState holder.screen.fullSnapshot).grid
      = holder.screen.update true (List.range holder.screen.geometry.rows) := rfl
  have haccepts := hsized.accepts_fullSnapshot hgrid rfl c.last
  obtain ⟨hsound', hepoch, -, bytes, hlast⟩ := hsound.queue hqueue haccepts
  exact ⟨⟨hsound', .of_last hlast⟩, hepoch⟩

theorem Connection.queue_isSome {message : RemoteMessage} {shown : View} {c : Connection}
    {bytes : Nat} (h : RemoteCodec.encodeInto message = .ok bytes) :
    ∃ c', c.queue message shown = .ok c' := by
  unfold Connection.queue
  rw [h]
  exact ⟨_, rfl⟩

theorem Holder.queueSnapshot_isSome (hsized : holder.screen.Sized)
    (c : Connection) : ∃ c', holder.queueSnapshot c = .ok c' := by
  obtain ⟨bytes, hbytes⟩ :=
    hsized.encodeInto_fullSnapshot (holder.gridState holder.screen.fullSnapshot) rfl
  exact Connection.queue_isSome hbytes

namespace HolderInv

variable {holder holder' : Holder}

section
variable (h : HolderInv holder)
include h

theorem reseed {c : Connection} (hsound : c.Sound)
    (hreseed : holder.reseed c = some holder') : HolderInv holder' := by
  unfold Holder.reseed at hreseed
  obtain ⟨c₁, herror, hreseed⟩ := bind_eq_some_iff.mp hreseed
  obtain ⟨c₂, hsnapshot, hholder⟩ := bind_eq_some_iff.mp hreseed
  obtain ⟨⟩ := hholder
  obtain ⟨hsound₁, -⟩ := hsound.discard.queue_other (toOption_eq_some herror)
  have hbumped := h.bump h.sized
  exact hbumped.connect (Serving.queueSnapshot hbumped.sized hsound₁ (toOption_eq_some hsnapshot)).1

theorem queue {message : RemoteMessage} (hserves : ∀ c c', holder.connection = some c →
      c.queue message holder.screen.view = .ok c' → Serving holder c')
    (hqueue : holder.queue message = some holder') : HolderInv holder' := by
  unfold Holder.queue at hqueue
  cases hconnection : holder.connection with
  | none =>
    rw [hconnection] at hqueue
    obtain ⟨⟩ := hqueue
    exact h
  | some c =>
    rw [hconnection] at hqueue
    obtain ⟨c', hqueued, hrest⟩ := bind_eq_some_iff.mp hqueue
    have hserves' := hserves c c' hconnection (toOption_eq_some hqueued)
    split at hrest
    · split at hrest
      · obtain ⟨⟩ := hrest
        exact h.dropConnection hserves'.sound
      · exact h.reseed hserves'.sound hrest
    · obtain ⟨⟩ := hrest
      exact h.connect hserves'

theorem queue_other {payloadLength : Nat}
    (hqueue : holder.queue (.other payloadLength) = some holder') : HolderInv holder' :=
  h.queue (fun c _ hc hqueued => ((h.serves c hc).queue_other hqueued).1) hqueue

theorem queue_isSome {message : RemoteMessage} {bytes : Nat}
    (hencode : RemoteCodec.encodeInto message = .ok bytes) :
    ∃ holder', holder.queue message = some holder' := by
  unfold Holder.queue
  cases holder.connection with
  | none => exact ⟨_, rfl⟩
  | some c =>
    obtain ⟨c', hqueued⟩ : ∃ c', c.queue message holder.screen.view = .ok c' :=
      Connection.queue_isSome hencode
    simp only [hqueued, Except.toOption, bind_eq_bind, bind_some]
    split
    · split
      · exact ⟨_, rfl⟩
      · -- the reseed queues an error and a snapshot, and both encode
        obtain ⟨c₁, herror⟩ : ∃ c₁, Connection.queue (.other (Connection.errorPayload
            "slow_client_reseed"
            "incremental output was discarded; applying a fresh terminal snapshot" false))
            holder.screen.view { c' with
              outbound := []
              sent := 0 } = .ok c₁ := ⟨_, rfl⟩
        have hbumped := h.bump h.sized
        obtain ⟨c₂, hsnapshot⟩ := Holder.queueSnapshot_isSome hbumped.sized c₁
        unfold Holder.reseed
        simp only [herror, hsnapshot, Except.toOption, bind_eq_bind, bind_some]
        exact ⟨_, rfl⟩
    · exact ⟨_, rfl⟩

end

end HolderInv

/-! ### Emitting -/

/--
The delta that would be emitted now lands: a sequence number is left, the last one went
to this connection, and every row that equals the diff baseline is in the last picture.
-/
def Holder.Covered (holder : Holder) : Prop :=
  ∀ c, c ∈ holder.connection → c.epoch.isSome = true → holder.screen.SameGeometry →
    holder.snapshotSequence < maxU64 ∧
    ∃ held, held ∈ c.last ∧ held.1 = holder.snapshotSequence ∧
      Covers (· < holder.screen.geometry.rows)
        (fun y => rowOf holder.screen.geometry.cols y holder.screen.lastCells) holder.screen.row
        (fun y => rowOf holder.screen.geometry.cols y held.2.cells)

instance Holder.Covered.decidable (holder : Holder) : Decidable holder.Covered :=
  inferInstanceAs (Decidable (∀ c, c ∈ holder.connection → c.epoch.isSome = true →
    holder.screen.SameGeometry → _ ∧ ∃ held, held ∈ c.last ∧ _))

/-- The Holder once it took a diff: the baseline and the sequence have moved. -/
def Holder.rebased (holder : Holder) : Holder :=
  { holder with
    screen := { holder.screen with
      lastCells := holder.screen.cells
      lastGridCols := holder.screen.geometry.cols
      lastGridRows := holder.screen.geometry.rows }
    snapshotSequence := saturatingSucc holder.snapshotSequence }

namespace HolderInv

variable {holder holder' : Holder}

section
variable (h : HolderInv holder)
include h

theorem rebased : HolderInv holder.rebased := h.bump h.sized.rebased

theorem emitGridDelta_full (hattached : holder.attached = true)
    (hsize : ¬holder.screen.SameGeometry) :
    holder.emitGridDelta = holder.rebased.queue (.fullSnapshot (holder.rebased.gridState
      (holder.screen.update true (List.range holder.screen.geometry.rows)))) := by
  have hfull : decide (false = true ∨ ¬holder.screen.SameGeometry) = true := by
    simp [hsize]
  unfold Holder.emitGridDelta
  rw [h.sized.formed.gridUpdate_eq, hattached, hfull, HeadlessScreen.changedYs_true]
  rfl

theorem emitGridDelta_delta (hattached : holder.attached = true)
    (hsize : holder.screen.SameGeometry) :
    holder.emitGridDelta = holder.rebased.queue (.gridDelta (holder.rebased.gridState
      (holder.screen.update false (holder.screen.changedYs false holder.screen.baseline
        holder.screen.geometry.rows)))) := by
  have hdelta : decide (false = true ∨ ¬holder.screen.SameGeometry) = false := by
    simp [hsize]
  unfold Holder.emitGridDelta
  rw [h.sized.formed.gridUpdate_eq, hattached, hdelta]
  rfl

theorem emitGridDelta (hcovered : holder.Covered)
    (hemit : holder.emitGridDelta = some holder') : HolderInv holder' := by
  cases hattached : holder.attached with
  | false =>
    rw [Holder.emitGridDelta, hattached] at hemit
    obtain ⟨⟩ := hemit
    exact h
  | true =>
    by_cases hsize : holder.screen.SameGeometry
    · rw [h.emitGridDelta_delta hattached hsize] at hemit
      refine h.rebased.queue (fun c c' hc hqueued => ?_) hemit
      have hepoch : c.epoch.isSome = true := by
        have hc' : holder.connection = some c := hc
        rw [Holder.attached, hc'] at hattached
        exact hattached
      obtain ⟨hleft, ⟨reached, view⟩, hlast, rfl, hcovers⟩ := hcovered c hc hepoch hsize
      have hserves := h.serves c hc
      obtain ⟨-, hview⟩ := hserves.current _ _ hlast
      obtain ⟨hviewSize, hviewLength⟩ := hview rfl hleft
      have hbaseline : holder.screen.baseline = holder.screen.lastCells := if_pos hsize
      rw [← hbaseline] at hcovers
      have hsequence := saturatingSucc_of_lt hleft
      have hgrid : (holder.rebased.gridState (holder.screen.update false
          (holder.screen.changedYs false holder.screen.baseline holder.screen.geometry.rows))).grid
          = holder.screen.update false (holder.screen.changedYs false holder.screen.baseline
            holder.screen.geometry.rows) := rfl
      have haccepts := h.sized.accepts_gridDelta hgrid rfl hsequence hleft hviewSize hviewLength
        hcovers
      rw [← hlast] at haccepts
      obtain ⟨hsound, -, -, bytes, hnext⟩ := hserves.sound.queue hqueued haccepts
      exact ⟨hsound, .of_last hnext⟩
    rw [h.emitGridDelta_full hattached hsize] at hemit
    refine h.rebased.queue (fun c c' hc hqueued => ?_) hemit
    have hgrid : (holder.rebased.gridState
        (holder.screen.update true (List.range holder.screen.geometry.rows))).grid
        = holder.screen.update true (List.range holder.screen.geometry.rows) := rfl
    have haccepts := h.sized.accepts_fullSnapshot hgrid rfl c.last
    obtain ⟨hsound, -, -, bytes, hnext⟩ := (h.serves c hc).sound.queue hqueued haccepts
    exact ⟨hsound, .of_last hnext⟩

theorem emitGridDelta_isSome : ∃ holder', holder.emitGridDelta = some holder' := by
  cases hattached : holder.attached with
  | false =>
    rw [Holder.emitGridDelta, hattached]
    exact ⟨holder, rfl⟩
  | true =>
    by_cases hsize : holder.screen.SameGeometry
    · rw [h.emitGridDelta_delta hattached hsize]
      obtain ⟨bytes, hencode⟩ := h.sized.encodeInto_gridDelta (holder.rebased.gridState
        (holder.screen.update false (holder.screen.changedYs false holder.screen.baseline
        holder.screen.geometry.rows))) rfl (fun y hy => (HeadlessScreen.mem_changedYs.mp hy).1)
        (holder.screen.length_changedYs_le _ _ _)
      exact h.rebased.queue_isSome hencode
    rw [h.emitGridDelta_full hattached hsize]
    obtain ⟨bytes, hencode⟩ := h.sized.encodeInto_fullSnapshot (holder.rebased.gridState
      (holder.screen.update true (List.range holder.screen.geometry.rows))) rfl
    exact h.rebased.queue_isSome hencode

end

/-! ### Controllers -/

variable {left : Option Connection}

/-- A controller's message keeps the invariant, and a connection that survives it serves. -/
theorem handleMessage (h : HolderInv holder) {c : Connection} (hserves : Serving holder c)
    {message : Control} (hhandle : holder.handleMessage message c = (holder', left)) :
    HolderInv holder' ∧ holder'.connection = holder.connection ∧
      ∀ c', left = some c' → Serving holder' c' := by
  unfold Holder.handleMessage at hhandle
  split at hhandle
  · obtain ⟨rfl, rfl⟩ := Prod.mk.inj hhandle
    exact ⟨h, rfl, fun _ hc => by cases hc⟩
  cases message with
  | resize cols rows reflowed stored =>
    simp only at hhandle
    split at hhandle
    · next term hdims =>
      obtain ⟨rfl, rfl⟩ := Prod.mk.inj hhandle
      have hsized := h.sized.resize hdims term
      refine ⟨h.bump hsized, rfl, fun c' hc => ?_⟩
      split at hc
      · exact (Serving.queueSnapshot hsized hserves.sound (toOption_eq_some hc)).1
      · cases hc
    · obtain ⟨rfl, rfl⟩ := Prod.mk.inj hhandle
      exact ⟨h, rfl, fun _ hc => by cases hc⟩
  | answered payloadLength =>
    obtain ⟨rfl, rfl⟩ := Prod.mk.inj hhandle
    exact ⟨h, rfl, fun _ hc => (hserves.queue_other (toOption_eq_some hc)).1⟩
  | taken =>
    obtain ⟨rfl, rfl⟩ := Prod.mk.inj hhandle
    refine ⟨h, rfl, fun _ hc => ?_⟩
    rw [← some.inj hc]
    exact hserves
  | refused =>
    obtain ⟨rfl, rfl⟩ := Prod.mk.inj hhandle
    exact ⟨h, rfl, fun _ hc => by cases hc⟩

theorem handleMessages (h : HolderInv holder) {c : Connection} (hserves : Serving holder c)
    {messages : List Control} (hhandle : holder.handleMessages messages c = (holder', left)) :
    HolderInv holder' ∧ ∀ c', left = some c' → Serving holder' c' := by
  induction messages generalizing holder c with
  | nil =>
    obtain ⟨rfl, rfl⟩ := Prod.mk.inj hhandle
    refine ⟨h, fun _ hc => ?_⟩
    rw [← some.inj hc]
    exact hserves
  | cons message rest ih =>
    rw [Holder.handleMessages] at hhandle
    cases hfirst : holder.handleMessage message c with
    | mk next left' =>
      obtain ⟨hinv, -, hleft⟩ := h.handleMessage hserves hfirst
      rw [hfirst] at hhandle
      cases left' with
      | none =>
        obtain ⟨rfl, rfl⟩ := Prod.mk.inj hhandle
        exact ⟨hinv, fun _ hc => by cases hc⟩
      | some c' => exact ih hinv (hleft c' rfl) hhandle

theorem readConnection (h : HolderInv holder) (message : Control) :
    HolderInv (holder.readConnection message) := by
  unfold Holder.readConnection
  cases hconnection : holder.connection with
  | none => exact h
  | some c =>
    have hserves := h.serves c hconnection
    have halone : HolderInv { holder with connection := none } :=
      ⟨h.sized, h.sequence_le, (fun _ hc => by cases hc), h.past⟩
    simp only
    cases hhandle : Holder.handleMessage message c { holder with connection := none } with
    | mk next left =>
      obtain ⟨hinv, -, hleft⟩ := halone.handleMessage ⟨hserves.sound, hserves.current⟩ hhandle
      cases left with
      | none => exact hinv.dropConnection hserves.sound
      | some c' => exact hinv.connect (hleft c' rfl)

/-! ### Attaching -/

theorem queueAll_sound {c c' : Connection} (hsound : c.Sound) {payloadLengths : List Nat}
    (hqueue : holder.queueAll payloadLengths c = .ok c') : c'.Sound := by
  induction payloadLengths generalizing c with
  | nil =>
    obtain rfl := Except.ok.inj hqueue
    exact hsound
  | cons payloadLength rest ih =>
    unfold Holder.queueAll at hqueue
    rw [foldlM_cons] at hqueue
    cases hfirst : c.queue (.other payloadLength) holder.screen.view with
    | error error =>
      rw [hfirst] at hqueue
      cases hqueue
    | ok c₁ =>
      rw [hfirst] at hqueue
      exact ih (hsound.queue_other hfirst).1 hqueue

/-- A handshake moves the epoch and the sequence; the connection it leaves serves. -/
theorem handshake (h : HolderInv holder) {attach : Attach} {c : Connection} (hsound : c.Sound)
    (hshake : holder.handshake attach c = (holder', left)) :
    HolderInv holder' ∧ ∀ c', left = some c' → Serving holder' c' := by
  have hepoch : HolderInv { holder with
      controllerEpoch := saturatingSucc holder.controllerEpoch } :=
    ⟨h.sized, h.sequence_le, fun c hc => ⟨(h.serves c hc).sound, (h.serves c hc).current⟩, h.past⟩
  unfold Holder.handshake at hshake
  simp only at hshake
  split at hshake
  · obtain ⟨rfl, rfl⟩ := Prod.mk.inj hshake
    exact ⟨hepoch, fun _ hc => by cases hc⟩
  next greeted hgreet =>
    obtain ⟨rfl, rfl⟩ := Prod.mk.inj hshake
    obtain ⟨replay, -, hqueued⟩ := Option.bind_eq_some_iff.mp hgreet
    have hgreeted := queueAll_sound (c := { c with
      epoch := some (saturatingSucc holder.controllerEpoch) })
      ⟨hsound.sent_le, hsound.bytes_pos, hsound.lands⟩ (toOption_eq_some hqueued)
    have hbumped := hepoch.bump h.sized
    refine ⟨hbumped, fun c' hc => ?_⟩
    obtain ⟨c₁, hsnapshot, hc⟩ := Option.bind_eq_some_iff.mp hc
    obtain ⟨c₂, hgranted, hc⟩ := Option.bind_eq_some_iff.mp hc
    have hserves := (Serving.queueSnapshot hbumped.sized hgreeted (toOption_eq_some hsnapshot)).1
    have hserves' := (hserves.queue_other (toOption_eq_some hgranted)).1
    split at hc
    · rw [← Option.some.inj hc]
      exact hserves'
    · cases hc

theorem revoke (h : HolderInv holder) (attach : Attach) : HolderInv (holder.revoke attach) := by
  unfold Holder.revoke
  cases hconnection : holder.connection with
  | none => exact h
  | some previous =>
    have hsound := (h.serves previous hconnection).sound
    have htold : ((previous.queue (.other attach.controlRevoked)
        holder.screen.view).toOption.getD previous).Sound := by
      cases hqueue : previous.queue (.other attach.controlRevoked) holder.screen.view with
      | error error => exact hsound
      | ok told => exact (hsound.queue_other hqueue).1
    exact h.dropConnection (htold.flush attach.flushed).1

theorem readPendingConnection (h : HolderInv holder) (attach : Attach) :
    HolderInv (holder.readPendingConnection attach) := by
  unfold Holder.readPendingConnection
  have hnew := Connection.Sound.new attach.mirror none
  cases hshake : holder.handshake attach { link := { mirror := attach.mirror } } with
  | mk shaken left =>
    obtain ⟨hinv, hleft⟩ := h.handshake hnew hshake
    cases left with
    | none => exact hinv
    | some c =>
      simp only
      cases hhandle : shaken.handleMessages attach.rest c with
      | mk handled left' =>
        obtain ⟨hinv', hleft'⟩ := hinv.handleMessages (hleft c rfl) hhandle
        cases left' with
        | none => exact hinv'
        | some c' =>
          simp only
          split
          · exact hinv'
          have hserves := hleft' c' rfl
          refine (hinv'.revoke attach).connect ?_
          unfold Holder.revoke
          split
          · exact hserves
          · exact ⟨hserves.sound, hserves.current⟩

/-! ### Runs -/

theorem onConnection (h : HolderInv holder) {change : Connection → Connection}
    (hchange : ∀ c : Connection, c.Sound → (change c).Sound ∧ (change c).last = c.last) :
    HolderInv (holder.onConnection change) where
  sized := h.sized
  sequence_le := h.sequence_le
  serves c' hc := by
    obtain ⟨c, hconnection, rfl⟩ := Option.map_eq_some_iff.mp hc
    have hserves := h.serves c hconnection
    obtain ⟨hsound, hlast⟩ := hchange c hserves.sound
    refine ⟨hsound, ?_⟩
    unfold Connection.Current
    rw [hlast]
    exact hserves.current
  past := h.past

theorem receivePast (h : HolderInv holder) (index : Nat) :
    HolderInv { holder with past := holder.past.modify index Link.receive } where
  sized := h.sized
  sequence_le := h.sequence_le
  serves c hc := ⟨(h.serves c hc).sound, (h.serves c hc).current⟩
  past link hlink := by
    obtain ⟨i, hi⟩ := List.mem_iff_getElem?.mp hlink
    rw [List.getElem?_modify] at hi
    obtain ⟨old, hold, hlink⟩ := Option.map_eq_some_iff.mp hi
    have hlands := h.past old (List.mem_of_getElem? hold)
    split at hlink
    · rw [← hlink]
      cases hwire : old.wire with
      | nil => rw [Link.receive, hwire]; exact hlands
      | cons queued rest =>
        rw [hwire] at hlands
        obtain ⟨mirror, hreceive, -, hrest⟩ := hlands.receive
        have hlink : old.receive = ⟨rest, mirror⟩ := by
          simp [Link.receive, hwire, client_receive.mp hreceive]
        rw [hlink]
        exact hrest
    · rw [← hlink]
      exact hlands

theorem step (h : HolderInv holder) (hash : Hasher) {action : HolderAction}
    (hcovered : action = .emitGridDelta → holder.Covered)
    (hstep : holderStep hash holder action = some holder') : HolderInv holder' := by
  cases action with
  | output painted payloadLength =>
    have hsized := h.sized.feed hash painted
    have hgeometry := holder.screen.feed_geometry hash painted
    have hdrawn := h.draw hsized hgeometry
    replace hstep : holder.drainPty hash painted payloadLength = some holder' := hstep
    unfold Holder.drainPty at hstep
    simp only at hstep
    split at hstep
    · exact hdrawn.queue_other hstep
    · obtain ⟨⟩ := hstep
      exact hdrawn
  | emitGridDelta => exact h.emitGridDelta (hcovered rfl) hstep
  | control message =>
    obtain ⟨⟩ := hstep
    exact h.readConnection message
  | attach attach =>
    obtain ⟨⟩ := hstep
    exact h.readPendingConnection attach
  | disconnect =>
    obtain ⟨⟩ := hstep
    unfold Holder.disconnect
    split
    · exact h
    · next c hconnection => exact h.dropConnection (h.serves c hconnection).sound
  | flush accepted =>
    obtain ⟨⟩ := hstep
    exact h.onConnection fun c hsound => ⟨(hsound.flush accepted).1, (hsound.flush accepted).2.2⟩
  | processExit payloadLength => exact h.queue_other hstep
  | receive =>
    obtain ⟨⟩ := hstep
    exact h.onConnection fun c hsound => hsound.receive
  | receivePast index =>
    obtain ⟨⟩ := hstep
    exact h.receivePast index

/-- What a client reads next is accepted, and a grid shows the screen it was queued from. -/
theorem receive_agrees {link : Link} (hlands : client.Lands link.mirror.held link.wire)
    {queued : Queued} {rest : List Queued} (hwire : link.wire = queued :: rest) :
    ∃ mirror, link.mirror.receive queued.message = .ok mirror ∧
      (queued.message.isGrid = true → mirror.view = queued.shown) := by
  rw [hwire] at hlands
  obtain ⟨mirror, hreceive, hheld, -⟩ := hlands.receive
  refine ⟨mirror, client_receive.mp hreceive, fun hgrid => ?_⟩
  replace hheld : mirror.held = Queued.next link.mirror.held queued := hheld
  unfold Queued.next at hheld
  cases hmessage : queued.message with
  | fullSnapshot value | gridDelta value =>
    rw [hmessage] at hheld
    exact (GridMirror.held_eq_some.mp hheld).2
  | other payloadLength =>
    rw [hmessage] at hgrid
    exact absurd hgrid (by simp [RemoteMessage.isGrid])

end HolderInv

/-- The clients of a Holder: those of connections that are gone, and the controller. -/
def Holder.links (holder : Holder) : List Link :=
  holder.past ++ holder.connection.toList.map Connection.link

/-- Whatever a client reads next, its mirror accepts it; and it shows what was to be shown. -/
def Holder.Agrees (holder : Holder) : Prop :=
  ∀ link ∈ holder.links, ∀ queued rest, link.wire = queued :: rest →
    ∃ mirror, link.mirror.receive queued.message = .ok mirror ∧
      (queued.message.isGrid = true → mirror.view = queued.shown)

def Holder.start (cols rows : Nat) (term : Term) : Holder where
  screen := HeadlessScreen.new cols rows term

/-- If the action is an emission, it finds the Holder covered. -/
def Holder.Ready (holder : Holder) : HolderAction → Prop
  | .emitGridDelta => holder.Covered
  | _ => True

instance Holder.Ready.decidable (holder : Holder) (action : HolderAction) :
    Decidable (holder.Ready action) := by
  cases action <;> unfold Holder.Ready <;> infer_instance

/-- The frames that come from outside the grid fit the codec. -/
def HolderAction.Fits : HolderAction → Prop
  | .output _ payloadLength => payloadLength ≤ maxFrameBytes
  | .processExit payloadLength => payloadLength ≤ maxFrameBytes
  | _ => True

theorem HolderInv.run {hash : Hasher} {cols rows : Nat}
    (hdims : validateTerminalDimensions cols rows = .ok ()) {term : Term}
    {actions : List HolderAction}
    (hready : Meets Holder.Ready (holderStep hash) (.start cols rows term) actions)
    (hrun : partialRun (holderStep hash) (.start cols rows term) actions = some holder) :
    HolderInv holder := by
  refine hready.invariant (fun s action s' hinv haction hstep => ?_) ?_ hrun
  · refine hinv.step hash (fun hemit => ?_) hstep
    rw [hemit] at haction
    exact haction
  · exact ⟨.new hdims term, Nat.zero_le _, (fun _ hc => by cases hc), (fun _ hlink => by cases hlink)⟩

theorem HolderInv.step_isSome (h : HolderInv holder) (hash : Hasher)
    {action : HolderAction} (hfits : action.Fits) :
    ∃ holder', holderStep hash holder action = some holder' := by
  have hencode : ∀ {payloadLength : Nat}, payloadLength ≤ maxFrameBytes →
      RemoteCodec.encodeInto (.other payloadLength) = .ok (headerBytes + payloadLength) := by
    intro payloadLength hle
    simp [RemoteCodec.encodeInto, RemoteCodec.payload, Nat.not_lt.mpr hle, bind, Except.bind, pure,
      Except.pure]
  cases action with
  | output painted payloadLength =>
    have hsized := h.sized.feed hash painted
    have hgeometry := holder.screen.feed_geometry hash painted
    show ∃ holder', holder.drainPty hash painted payloadLength = some holder'
    unfold Holder.drainPty
    simp only
    split
    · exact (h.draw hsized hgeometry).queue_isSome (hencode hfits)
    · exact ⟨_, rfl⟩
  | emitGridDelta => exact h.emitGridDelta_isSome
  | control message | attach attach | disconnect | flush accepted => exact ⟨_, rfl⟩
  | processExit payloadLength => exact h.queue_isSome (hencode hfits)
  | receive | receivePast index => exact ⟨_, rfl⟩

/--
**Covered runs agree.**  In every run whose emissions find the Holder covered, whatever
a client reads next is accepted by its mirror, and after a grid the mirror shows the
screen as it was when that grid was queued.  The Holder itself never stops at a grid.
-/
theorem grid_agreement (hash : Hasher) (cols rows : Nat)
    (hdims : validateTerminalDimensions cols rows = .ok ()) (term : Term)
    (actions : List HolderAction) (holder : Holder)
    (hrun : partialRun (holderStep hash) (.start cols rows term) actions = some holder)
    (hready : Meets Holder.Ready (holderStep hash) (.start cols rows term) actions) :
    holder.Agrees ∧
      ∀ action : HolderAction, action.Fits → (holderStep hash holder action).isSome = true := by
  have hinv := HolderInv.run hdims hready hrun
  refine ⟨fun link hlink queued rest hwire => ?_, fun action hfits => ?_⟩
  · refine HolderInv.receive_agrees ?_ hwire
    rcases mem_append.mp hlink with hpast | hcurrent
    · exact hinv.past link hpast
    · obtain ⟨c, hc, rfl⟩ := mem_map.mp hcurrent
      exact (hinv.serves c (mem_toList.mp hc)).sound.lands.cut
  · obtain ⟨holder', hstep⟩ := hinv.step_isSome hash hfits
    rw [hstep]
    rfl

/-! ### A row that reverts -/

/-- An emulator with one character everywhere. -/
def paintedAll (c : Char) : Term := .filled ⟨c, .default, .defaultInverted, 0⟩

/-- A new client attaches; `closed` if it is gone right after its `Hello`. -/
def plainAttach (closed : Bool) : HolderAction :=
  .attach {
    mirror := {}
    helloAck := 1
    replay := some []
    controlGranted := 1
    stored := true
    rest := []
    closed := closed
    controlRevoked := 1
    flushed := 0 }

def printed (c : Char) : HolderAction := .output ⟨paintedAll c, none, true⟩ 9

/-- Attach, print and emit, detach, attach, print elsewhere and emit. -/
def agreeingRun : List HolderAction :=
  [plainAttach false, .emitGridDelta, printed 'B', .emitGridDelta, .disconnect, .emitGridDelta,
    plainAttach false, printed 'C', .emitGridDelta, .flush 1000, .receive, .receive, .receive]

/-- A hash that tells nothing apart but sizes. -/
def sizeHash : Hasher := fun chars _ => chars.length

theorem grid_agreement_reattached :
    ∃ holder, partialRun (holderStep sizeHash) (.start 1 1 (paintedAll 'A')) agreeingRun
        = some holder ∧ holder.Agrees ∧
      ∀ action : HolderAction, action.Fits → (holderStep sizeHash holder action).isSome = true :=
  ⟨_, rfl, grid_agreement sizeHash 1 1 rfl (paintedAll 'A') agreeingRun _ rfl (by decide +kernel)⟩

/-- Emit `A`, print `B`, attach again, print `A` and emit. -/
def staleRun : List HolderAction :=
  [plainAttach false, .emitGridDelta, printed 'B', plainAttach false, printed 'A', .emitGridDelta,
    .flush 1000, .receive, .receive, .receive, .receive]

/-- Emit, let another attach fail after its handshake, print and emit. -/
def gapRun : List HolderAction :=
  [plainAttach false, .emitGridDelta, plainAttach true, printed 'B', .emitGridDelta, .flush 1000,
    .receive, .receive, .receive, .receive, .receive]

/-- What the controller's client reads next, and what becomes of it. -/
def Holder.nextRead (holder : Holder) : Option (Queued × Except MirrorError GridMirror) :=
  holder.connection.bind fun c => c.link.wire.head?.map fun queued =>
    (queued, c.link.mirror.receive queued.message)

/--
**A reverted row is lost, and a failed attach starves the old client.**  In the first
run the last delta leaves out a row that equals the baseline, though the client was last
sent another: its mirror accepts the delta and shows `B` where the screen shows `A`.  In
the second, a sequence number went to an attach that came to nothing, and the mirror of
the client that stayed rejects the next delta.
-/
theorem reverted_row_is_lost : (∃ holder queued mirror,
      partialRun (holderStep sizeHash) (.start 1 1 (paintedAll 'A')) staleRun = some holder ∧
      holder.nextRead = some (queued, .ok mirror) ∧ queued.message.isGrid = true ∧
      mirror.cells = [wireCell ⟨'B', .default, .defaultInverted, 0⟩] ∧
      queued.shown.cells = [wireCell ⟨'A', .default, .defaultInverted, 0⟩]) ∧
    ((partialRun (holderStep sizeHash) (.start 1 1 (paintedAll 'A')) gapRun).bind
      Holder.nextRead).map Prod.snd = some (.error (.sequenceGap 3 4)) :=
  ⟨⟨_, _, _, rfl, rfl, rfl, rfl, rfl⟩, by decide +kernel⟩

end Diri
