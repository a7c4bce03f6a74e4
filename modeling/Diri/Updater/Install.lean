/-
The script that puts an update in the place of the installed app.

The helper waits for the app to exit, moves the installed bundle aside, copies the staged
one to its place and then discards the old one; where the copy fails, it puts the old one
back.  It is a machine with a step for each command.  A command may do all of its work,
some of it, or none, and the helper may be cut off there; another helper may then be
started for the same target.
-/
import Mathlib.Logic.Basic

namespace Diri

/-- What is at a path. -/
inductive Bundle
  | missing
  /-- Some of a bundle, or a bundle with something else in it. -/
  | broken
  | complete (build : String)
  deriving DecidableEq, Repr

/-- How much of its work a command does; it succeeds if that is all of it. -/
inductive Extent
  | nothing
  | part
  | all
  deriving DecidableEq, Repr

namespace Bundle

def IsComplete (bundle : Bundle) : Prop := ∃ build, bundle = .complete build

instance (bundle : Bundle) : Decidable bundle.IsComplete :=
  match bundle with
  | .missing | .broken => .isFalse (by rintro ⟨_, h⟩; cases h)
  | .complete build => .isTrue ⟨build, rfl⟩

/-- `rm -rf` of the path. -/
def remove : Bundle → Extent → Bundle
  | .missing, _ => .missing
  | bundle, .nothing => bundle
  | _, .part => .broken
  | _, .all => .missing

/-- What is at the path of the destination after `mv`: a directory there takes it in. -/
def takeIn (destination source : Bundle) : Bundle :=
  if destination = .missing then source else .broken

/-- What `ditto` leaves at the path it copies to. -/
def unpack (destination staged : Bundle) : Extent → Bundle
  | .nothing => destination
  | .part => if staged = .missing then destination else .broken
  | .all => if staged = .missing then destination else destination.takeIn staged

end Bundle

/-- The next command of the helper. -/
inductive InstallStage
  | waiting (waited : Nat)
  | discardBackup
  | testTarget
  | moveAside
  | unpack
  | discardPrevious
  | relaunch
  | clearTarget
  | testBackup
  | moveBack
  | reopen
  | ended (status : Nat)
  | cutOff
  deriving DecidableEq, Repr

structure Install where
  target : Bundle
  backup : Bundle
  staged : Bundle
  stage : InstallStage
  deriving DecidableEq, Repr

inductive InstallEvent
  | launch (staged : Bundle)
  /-- `kill -0` finds the app running. -/
  | running
  /-- `kill -0` finds it gone. -/
  | exited
  | runs (extent : Extent)
  | cut (extent : Extent)
  deriving DecidableEq, Repr

namespace Install

def exitGraceSeconds : Nat := 60
def attempts : Nat := exitGraceSeconds * 10

/-- What the command does to the two paths. -/
def effect (s : Install) (extent : Extent) : Install :=
  match s.stage with
  | .discardBackup | .discardPrevious => { s with backup := s.backup.remove extent }
  | .moveAside =>
    if extent = .all then { s with target := .missing, backup := s.backup.takeIn s.target }
    else s
  | .unpack => { s with target := s.target.unpack s.staged extent }
  | .clearTarget => { s with target := s.target.remove extent }
  | .moveBack =>
    if extent = .all then { s with target := s.target.takeIn s.backup, backup := .missing }
    else s
  | _ => s

/-- The command after this one; only `mv` aside and `ditto` are asked how they ended. -/
def next (s : Install) (extent : Extent) : InstallStage :=
  match s.stage with
  | .discardBackup => .testTarget
  | .testTarget => if s.target = .missing then .unpack else .moveAside
  | .moveAside => if extent = .all then .unpack else .ended 1
  | .unpack => if extent = .all ∧ s.staged ≠ .missing then .discardPrevious else .clearTarget
  | .discardPrevious => .relaunch
  | .relaunch => .ended (if extent = .all then 0 else 1)
  | .clearTarget => .testBackup
  | .testBackup => if s.backup = .missing then .reopen else .moveBack
  | .moveBack => .reopen
  | .reopen => .ended 1
  | stage => stage

/-- A helper is there, and past the wait for the app. -/
def atCommand : InstallStage → Bool
  | .waiting _ | .ended _ | .cutOff => false
  | _ => true

def step (s : Install) : InstallEvent → Option Install
  | .launch staged =>
    match s.stage with
    | .ended _ | .cutOff => some { s with staged := staged, stage := .waiting 0 }
    | _ => none
  | .running =>
    match s.stage with
    | .waiting waited =>
      some { s with
        stage := if attempts < waited + 1 then .ended 1 else .waiting (waited + 1) }
    | _ => none
  | .exited =>
    match s.stage with
    | .waiting _ => some { s with stage := .discardBackup }
    | _ => none
  | .runs extent =>
    if atCommand s.stage then some { s.effect extent with stage := s.next extent } else none
  | .cut extent =>
    match s.stage with
    | .ended _ | .cutOff => none
    | _ => some { s.effect extent with stage := .cutOff }

end Install

end Diri
