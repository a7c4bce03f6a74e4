/-
A Holder's connection, and the client at its other end.

What a client will show once it has read everything queued to it is `Connection.last`,
and the invariant of a connection is that everything still owed lands on its mirror
(`Connection.Sound`).  Bytes being sent and messages being read leave both alone; what
is queued must land on `last`.  Snapshots always do; a delta does if `last` is the
picture one sequence number earlier and has the rows the delta leaves out.
-/
import Diri.Lib.Relay
import Diri.Proofs.Grid.Mirror

namespace Diri

open List

/-! ### What a client holds -/

/-- The sequence a mirror has reached, and the picture it shows. -/
def GridMirror.held (mirror : GridMirror) : Option (Nat × View) :=
  mirror.sequence.map fun sequence => (sequence, mirror.view)

theorem GridMirror.held_eq_some {mirror : GridMirror} {sequence : Nat} {view : View} :
    mirror.held = some (sequence, view) ↔ mirror.sequence = some sequence ∧ mirror.view = view := by
  simp [GridMirror.held]

/-- What a client should hold after a message. -/
def Queued.next (held : Option (Nat × View)) (queued : Queued) : Option (Nat × View) :=
  match queued.message with
  | .fullSnapshot value => some (value.sequence, queued.shown)
  | .gridDelta value => some (value.sequence, queued.shown)
  | .other _ => held

/-- A client, fed through its connection. -/
def client : Replica GridMirror Queued (Option (Nat × View)) where
  receive queued mirror := (mirror.receive queued.message).toOption
  held := GridMirror.held
  next := Queued.next

/-- A mirror that shows a given picture. -/
def View.mirror (view : View) (sequence : Nat) : GridMirror where
  cells := view.cells
  cols := view.size.1
  rows := view.size.2
  cursorCol := view.cursor.1
  cursorRow := view.cursor.2.1
  cursorVisible := view.cursor.2.2
  sequence := some sequence
  modes := view.modes

theorem client_receive {queued : Queued} {mirror mirror' : GridMirror} :
    client.receive queued mirror = some mirror' ↔ mirror.receive queued.message = .ok mirror' := by
  show (mirror.receive queued.message).toOption = some mirror' ↔ _
  cases mirror.receive queued.message with
  | error error | ok mirror'' => simp [Except.toOption]

namespace Connection

/-- What the client has not read yet, sent or not. -/
def owed (c : Connection) : List Queued := c.link.wire ++ c.outbound.drop (arrived c.sent c.outbound)

/-- What the client holds once it has read everything queued to it. -/
def last (c : Connection) : Option (Nat × View) := c.owed.foldl Queued.next c.link.mirror.held

/-- A connection whose client can take everything it is owed. -/
structure Sound (c : Connection) : Prop where
  sent_le : c.sent ≤ c.outboundLen
  bytes_pos : ∀ queued ∈ c.outbound, 0 < queued.bytes
  lands : client.Lands c.link.mirror.held c.owed

end Connection

/-! ### Counting bytes -/

theorem arrived_le (sent : Nat) (outbound : List Queued) :
    arrived sent outbound ≤ outbound.length := by
  induction outbound generalizing sent with
  | nil => exact Nat.le_refl 0
  | cons queued rest ih =>
    rw [arrived]
    split
    · exact Nat.succ_le_succ (ih _)
    · exact Nat.zero_le _

theorem arrived_mono {sent more : Nat} (h : sent ≤ more) (outbound : List Queued) :
    arrived sent outbound ≤ arrived more outbound := by
  induction outbound generalizing sent more with
  | nil => exact Nat.le_refl 0
  | cons queued rest ih =>
    rw [arrived, arrived]
    split
    · next hhead =>
      rw [if_pos (Nat.le_trans hhead h)]
      exact Nat.succ_le_succ (ih (Nat.sub_le_sub_right h _))
    · exact Nat.zero_le _

theorem arrived_all (outbound : List Queued) :
    arrived (outbound.map Queued.bytes).sum outbound = outbound.length := by
  induction outbound with
  | nil => rfl
  | cons queued rest ih =>
    rw [map_cons, sum_cons, arrived, if_pos (Nat.le_add_right _ _),
      Nat.add_sub_cancel_left, ih, length_cons]

theorem arrived_concat {sent : Nat} {outbound : List Queued} {queued : Queued}
    (hsent : sent ≤ (outbound.map Queued.bytes).sum) (hbytes : 0 < queued.bytes) :
    arrived sent (outbound ++ [queued]) = arrived sent outbound := by
  induction outbound generalizing sent with
  | nil =>
    obtain rfl : sent = 0 := Nat.le_zero.mp hsent
    exact if_neg (Nat.not_le.mpr hbytes)
  | cons first rest ih =>
    rw [cons_append, arrived, arrived, ih (Nat.sub_le_iff_le_add'.mpr hsent)]

/-! ### What a connection goes through -/

namespace Connection.Sound

variable {c c' : Connection}

theorem new (mirror : GridMirror) (epoch : Option Nat) :
    Connection.Sound { epoch := epoch, link := { mirror := mirror } } where
  sent_le := Nat.zero_le _
  bytes_pos := by simp
  lands := trivial

theorem queue (h : c.Sound) {message : RemoteMessage} {shown : View}
    (hqueue : c.queue message shown = .ok c')
    (haccepts : ∀ bytes, client.Accepts c.last ⟨message, bytes, shown⟩) :
    c'.Sound ∧ c'.epoch = c.epoch ∧ c'.sent = c.sent ∧
      ∃ bytes, c'.last = Queued.next c.last ⟨message, bytes, shown⟩ := by
  unfold Connection.queue at hqueue
  cases hencode : RemoteCodec.encodeInto message with
  | error error =>
    rw [hencode] at hqueue
    cases hqueue
  | ok bytes =>
    rw [hencode] at hqueue
    obtain rfl := Except.ok.inj hqueue
    have hpos := RemoteCodec.encodeInto_pos hencode
    have howed : Connection.owed { c with outbound := c.outbound ++ [⟨message, bytes, shown⟩] }
        = c.owed ++ [⟨message, bytes, shown⟩] := by
      unfold Connection.owed
      simp only
      rw [arrived_concat h.sent_le hpos, drop_append_of_le_length (arrived_le _ _), append_assoc]
    refine ⟨⟨?_, ?_, ?_⟩, rfl, rfl, bytes, ?_⟩
    · refine Nat.le_trans h.sent_le ?_
      simp [Connection.outboundLen]
    · intro queued hmem
      rcases List.mem_append.mp hmem with hold | hnew
      · exact h.bytes_pos queued hold
      · obtain rfl := List.mem_singleton.mp hnew
        exact hpos
    · rw [howed]
      exact h.lands.concat (haccepts bytes)
    · unfold Connection.last
      rw [howed, foldl_append]
      rfl

theorem queue_other (h : c.Sound) {payloadLength : Nat} {shown : View}
    (hqueue : c.queue (.other payloadLength) shown = .ok c') :
    c'.Sound ∧ c'.epoch = c.epoch ∧ c'.sent = c.sent ∧ c'.last = c.last := by
  have haccepts : ∀ bytes, client.Accepts c.last ⟨.other payloadLength, bytes, shown⟩ :=
    fun _ mirror hheld => ⟨mirror, rfl, hheld⟩
  obtain ⟨hsound, hepoch, hsent, bytes, hlast⟩ := h.queue hqueue haccepts
  exact ⟨hsound, hepoch, hsent, hlast⟩

theorem flush (h : c.Sound) (accepted : Nat) :
    (c.flush accepted).Sound ∧ (c.flush accepted).epoch = c.epoch ∧
      (c.flush accepted).last = c.last := by
  have hle : c.sent ≤ min (c.sent + accepted) c.outboundLen :=
    Nat.le_min.mpr ⟨Nat.le_add_right _ _, h.sent_le⟩
  have howed : (c.flush accepted).owed = c.owed := by
    unfold Connection.flush Connection.owed
    simp only
    split
    · next hall =>
      rw [hall, Connection.outboundLen, arrived_all, take_length]
      simp
    have hcut : ∀ {i j : Nat} (l : List Queued), i ≤ j →
        (l.take j).drop i ++ l.drop j = l.drop i := by
      intro i j l hij
      conv_rhs => rw [← take_append_drop (j - i) (l.drop i)]
      rw [drop_drop, Nat.add_sub_cancel' hij, drop_take]
    simp only
    rw [append_assoc, hcut _ (arrived_mono hle _)]
  have hmirror : (c.flush accepted).link.mirror = c.link.mirror := by
    unfold Connection.flush
    simp only
    split <;> rfl
  have hepoch : (c.flush accepted).epoch = c.epoch := by
    unfold Connection.flush
    simp only
    split <;> rfl
  refine ⟨⟨?_, ?_, ?_⟩, hepoch, ?_⟩
  · unfold Connection.flush
    simp only
    split
    · exact Nat.zero_le _
    · exact Nat.min_le_right _ _
  · unfold Connection.flush
    simp only
    split
    · simp
    · exact h.bytes_pos
  · rw [howed, hmirror]
    exact h.lands
  · unfold Connection.last
    rw [howed, hmirror]

theorem receive (h : c.Sound) : Connection.Sound { c with link := c.link.receive } ∧
      Connection.last { c with link := c.link.receive } = c.last := by
  cases hwire : c.link.wire with
  | nil =>
    have hsame : c.link.receive = c.link := by simp [Link.receive, hwire]
    rw [hsame]
    exact ⟨h, rfl⟩
  | cons queued rest =>
    have howed : c.owed = queued :: (rest ++ c.outbound.drop (arrived c.sent c.outbound)) := by
      simp [Connection.owed, hwire]
    have hlands := h.lands
    rw [howed] at hlands
    obtain ⟨mirror, hreceive, hheld, hrest⟩ := hlands.receive
    have hlink : c.link.receive = ⟨rest, mirror⟩ := by
      simp [Link.receive, hwire, client_receive.mp hreceive]
    rw [hlink]
    refine ⟨⟨h.sent_le, h.bytes_pos, hrest⟩, ?_⟩
    unfold Connection.last
    rw [howed, foldl_cons]
    exact congrArg (List.foldl Queued.next · _) hheld

theorem discard (h : c.Sound) : Connection.Sound { c with
      outbound := []
      sent := 0 } where
  sent_le := Nat.zero_le _
  bytes_pos := by simp
  lands := by
    unfold Connection.owed
    rw [drop_nil, append_nil]
    exact h.lands.cut

end Connection.Sound

/-! ### What the Holder queues -/

theorem HeadlessScreen.view_size (screen : HeadlessScreen) :
    screen.view.size = (screen.geometry.cols, screen.geometry.rows) := rfl

namespace HeadlessScreen.Sized

theorem accepts_fullSnapshot {screen : HeadlessScreen} (h : screen.Sized) {state : GridState}
    (hgrid : state.grid = screen.update true (List.range screen.geometry.rows))
    (hmodes : state.modes = screen.modes) (held : Option (Nat × View)) (bytes : Nat) :
    client.Accepts held ⟨.fullSnapshot state, bytes, screen.view⟩ := by
  intro mirror _
  obtain ⟨mirror', hreceive, hsequence, hview⟩ := h.applySnapshot_update mirror state.sequence
  refine ⟨mirror', client_receive.mpr ?_, GridMirror.held_eq_some.mpr ⟨hsequence, hview⟩⟩
  rw [← hgrid, ← hmodes] at hreceive
  exact hreceive

/-- A delta lands on a client that holds the picture before, and has the rows it leaves out. -/
theorem accepts_gridDelta {screen : HeadlessScreen} (h : screen.Sized) {state : GridState}
    {previous : Nat} {view : View} (hgrid : state.grid = screen.update false
      (screen.changedYs false screen.baseline screen.geometry.rows))
    (hmodes : state.modes = screen.modes) (hsequence : state.sequence = previous + 1)
    (hnext : previous + 1 ≤ maxU64) (hsize : view.size = screen.view.size)
    (hlength : view.cells.length = screen.geometry.cols * screen.geometry.rows)
    (hcovers : Covers (· < screen.geometry.rows)
      (fun y => rowOf screen.geometry.cols y screen.baseline) screen.row
      (fun y => rowOf screen.geometry.cols y view.cells)) (bytes : Nat) :
    client.Accepts (some (previous, view)) ⟨.gridDelta state, bytes, screen.view⟩ := by
  intro mirror hheld
  obtain ⟨hprevious, rfl⟩ := GridMirror.held_eq_some.mp hheld
  obtain ⟨mirror', hreceive, hreached, hview⟩ :=
    h.applyDelta_update hprevious hnext hsize hlength hcovers
  refine ⟨mirror', client_receive.mpr ?_, ?_⟩
  · rw [← hgrid, ← hmodes, ← hsequence] at hreceive
    exact hreceive
  · rw [← hsequence] at hreached
    exact GridMirror.held_eq_some.mpr ⟨hreached, hview⟩

end HeadlessScreen.Sized

end Diri
