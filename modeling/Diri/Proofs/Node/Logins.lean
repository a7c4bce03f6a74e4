/-
Logins across polls.

A poll takes the handle out of the table before it asks the provider or the process, and an
error there goes out past the branch that puts it back.  So a login outlives a poll that
fails nowhere: the answer it waits for is what decides.  Everything else leaves the table
alone, adds to it, or is a cancellation.
-/
import Diri.Node.Providers
import Diri.Proofs.Node.Catalog

namespace Diri.Accounts

open Handler

variable {Server : Type}

/-! ### What leaves the logins alone -/

/-- The same logins, and none dropped. -/
structure SameLogins (m m' : ProviderManager Server) : Prop where
  logins : m'.logins = m.logins
  dropped : m'.dropped = m.dropped

instance SameLogins.steps : Steps (@SameLogins Server) where
  refl _ := ⟨rfl, rfl⟩
  trans h₁ h₂ := ⟨h₂.logins.trans h₁.logins, h₂.dropped.trans h₁.dropped⟩

section
variable {R : ProviderManager Server → ProviderManager Server → Prop} {α : Type}

theorem Moves.given [Steps R] (result : Except NodeError α) : Moves R (given result) := by
  cases result with
  | ok a => exact Moves.pure a
  | error error => exact Moves.throw error

end

section
variable (isWhitespace : Char → Bool) (store : AccountStore) (data : AccountsFile)
variable (outside : ProviderOutside Server)

theorem SameLogins.codexServer (profile : AccountProfile) :
    Moves SameLogins (codexServer outside profile) := by
  refine Moves.get_bind fun m => ?_
  cases m.codex.lookup profile.id with
  | some server => exact SameLogins.steps.refl m
  | none =>
    refine Moves.bind (Moves.given _) (fun server => ?_) m
    exact Moves.bind (Moves.modify fun _ => ⟨rfl, rfl⟩) fun _ => Moves.pure server

theorem SameLogins.codexRequest (profile : AccountProfile) (method : String) (params : Json) :
    Moves SameLogins (codexRequest outside profile method params) := by
  refine Moves.bind (SameLogins.codexServer outside profile) fun server => ?_
  exact Moves.bind (Moves.modify fun _ => ⟨rfl, rfl⟩) fun _ => Moves.given _

theorem SameLogins.status (profileId : String) :
    Moves SameLogins (status store data outside profileId) := by
  refine Moves.bind (Moves.given _) fun profile => ?_
  split
  · exact Moves.bind (SameLogins.codexRequest outside profile _ _) fun _ => Moves.pure _
  · exact Moves.bind (Moves.given _) fun _ => Moves.pure _

theorem SameLogins.loginInput (params : LoginInputParams) :
    Moves SameLogins (loginInput outside params) := by
  refine Moves.get_bind fun m => ?_
  split
  · exact Moves.ite (fun _ => Moves.given _) (fun _ => Moves.throw _) m
  · exact SameLogins.steps.refl m

theorem SameLogins.call (params : ProviderCallParams) :
    Moves SameLogins (call data outside params) := by
  refine Moves.bind (Moves.given _) fun profile => ?_
  split
  · refine Moves.bind (Moves.given _) fun _ => ?_
    exact Moves.bind (SameLogins.codexRequest outside profile _ _) fun _ => Moves.pure _
  · exact Moves.bind (Moves.given _) fun _ => Moves.pure _

end

/-! ### What adds to the logins -/

/-- A login that a codex server asked for is not complete as long as it is kept. -/
def Pending (m : ProviderManager Server) : Prop :=
  ∀ loginId profileId challenge, m.logins.lookup loginId = some (.codex profileId challenge) →
    challenge.complete = false ∧ challenge.success = false

/-- No login is gone, and the new ones are pending. -/
structure AddsLogins (m m' : ProviderManager Server) : Prop where
  kept : ∀ loginId, loginId ∈ m.logins → loginId ∈ m'.logins
  pending : Pending m → Pending m'

instance AddsLogins.steps : Steps (@AddsLogins Server) where
  refl _ := ⟨fun _ h => h, id⟩
  trans h₁ h₂ := ⟨fun loginId h => h₂.kept loginId (h₁.kept loginId h), h₂.pending ∘ h₁.pending⟩

theorem SameLogins.adds {m m' : ProviderManager Server} (h : SameLogins m m') :
    AddsLogins m m' := by
  constructor
  · intro loginId hmem
    exact h.logins ▸ hmem
  · intro hpending loginId profileId challenge hlogin
    rw [h.logins] at hlogin
    exact hpending loginId profileId challenge hlogin

theorem AddsLogins.insertLogin {m : ProviderManager Server} (loginId : String)
    {handle : LoginHandle} (hpending : ∀ profileId challenge, handle = .codex profileId challenge →
      challenge.complete = false ∧ challenge.success = false) :
    AddsLogins m (m.insertLogin loginId handle) := by
  constructor
  · intro other hother
    exact (AList.mem_insert _).mpr (.inr hother)
  · intro hm other profileId challenge hlogin
    rcases Table.lookup_insert_cases hlogin with ⟨-, hhandle⟩ | ⟨-, hold⟩
    · exact hpending profileId challenge hhandle.symm
    · exact hm other profileId challenge hold

theorem codexChallenge_pending {profileId : String} {requested : LoginMode} {response : Json}
    {challenge : LoginChallenge} (h : codexChallenge profileId requested response = .ok challenge) :
    challenge.complete = false ∧ challenge.success = false := by
  unfold codexChallenge at h
  split at h <;> cases h
  exact ⟨rfl, rfl⟩

section
variable (data : AccountsFile) (outside : ProviderOutside Server)

theorem AddsLogins.dropHandle (handle : LoginHandle) : Moves AddsLogins
      (modify fun manager => manager.dropHandle handle : ProviderM Server PUnit) :=
  Moves.modify fun _ => ⟨fun _ h => h, id⟩

theorem AddsLogins.beginClaudeLogin (profile : AccountProfile) :
    Moves AddsLogins (beginClaudeLogin outside profile) := by
  unfold Accounts.beginClaudeLogin
  split
  · exact Moves.throw _
  split
  · exact Moves.bind (AddsLogins.dropHandle _) fun _ => Moves.throw _
  · refine Moves.bind (Moves.modify fun m => ?_) fun _ => Moves.pure _
    exact AddsLogins.insertLogin _ fun _ _ h => by cases h

theorem AddsLogins.beginLogin (params : AccountLoginStartParams) :
    Moves AddsLogins (beginLogin data outside params) := by
  refine Moves.bind (Moves.given _) fun profile => ?_
  split
  · refine Moves.ite (fun _ => Moves.throw _) fun _ => ?_
    refine Moves.bind (fun m => (SameLogins.codexServer outside profile m).adds) fun server => ?_
    refine Moves.bind (Moves.given _) fun asked => ?_
    refine Moves.bind (Moves.modify fun _ => SameLogins.adds ⟨rfl, rfl⟩) fun _ => ?_
    refine Moves.bind (Moves.given _) fun response => ?_
    cases hchallenge : codexChallenge profile.id params.mode response with
    | error error => exact Moves.throw error
    | ok challenge =>
      show Moves AddsLogins (do
        modify fun m => m.insertLogin challenge.loginId (.codex profile.id challenge)
        return challenge)
      refine Moves.bind (Moves.modify fun m => ?_) fun _ => Moves.pure challenge
      refine AddsLogins.insertLogin _ fun profileId other hhandle => ?_
      cases hhandle
      exact codexChallenge_pending hchallenge
  · exact Moves.ite (fun _ => Moves.throw _) fun _ => AddsLogins.beginClaudeLogin outside profile

end

/-! ### When a poll is answered -/

/-- The provider answers when it is asked for the account of a profile. -/
def StatusAnswered (data : AccountsFile) (outside : ProviderOutside Server)
    (m : ProviderManager Server) (profileId : String) : Prop :=
  ∃ profile, data.find profileId = some profile ∧
    match profile.provider with
    | .codex =>
      ∃ server, (m.codex.lookup profile.id = some server ∨
          m.codex.lookup profile.id = none ∧ outside.spawnCodex = .ok server) ∧
        ∃ value, (outside.request server "account/read"
          (.object [("refreshToken", .bool false)])).2 = .ok value
    | .claude => ∃ value, outside.claudeStatus = .ok value

/-- What the poll of a login waits for does not fail. -/
def LoginAnswered (data : AccountsFile) (outside : ProviderOutside Server)
    (m : ProviderManager Server) : LoginHandle → Prop
  | .codex profileId _ => StatusAnswered data outside m profileId
  | .interactive _ _ _ _ => ∃ exit, outside.tryWait = .ok exit

section
variable (store : AccountStore) {data : AccountsFile} {outside : ProviderOutside Server}
variable {m : ProviderManager Server}

theorem exec_given {α : Type} (result : Except NodeError α) (m : ProviderManager Server) :
    exec (given result) m = (result, m) := by
  cases result with
  | ok a => rfl
  | error error => rfl

theorem codexServer_ok_iff {profile : AccountProfile} {server : Server} :
    (∃ m', exec (codexServer outside profile) m = (.ok server, m')) ↔
      (m.codex.lookup profile.id = some server ∨
        m.codex.lookup profile.id = none ∧ outside.spawnCodex = .ok server) := by
  unfold codexServer
  rw [exec_bind_ok (exec_get m)]
  cases m.codex.lookup profile.id with
  | some found =>
    constructor
    · rintro ⟨m', h⟩
      exact .inl (congrArg some (Except.ok.inj (Prod.mk.inj h).1))
    · rintro (h | ⟨h, -⟩)
      · exact ⟨m, by rw [Option.some.inj h]; rfl⟩
      · cases h
  | none =>
    cases outside.spawnCodex with
    | ok found =>
      constructor
      · rintro ⟨m', h⟩
        exact .inr ⟨rfl, Except.ok.inj (Prod.mk.inj h).1 ▸ rfl⟩
      · rintro (h | ⟨-, h⟩)
        · cases h
        · cases h
          exact ⟨_, rfl⟩
    | error error =>
      constructor
      · rintro ⟨m', h⟩
        cases h
      · rintro (h | ⟨-, h⟩)
        · cases h
        · cases h

theorem codexRequest_ok_iff {profile : AccountProfile} {method : String} {params : Json} :
    (∃ value m', exec (codexRequest outside profile method params) m = (.ok value, m')) ↔
      ∃ server, (m.codex.lookup profile.id = some server ∨
          m.codex.lookup profile.id = none ∧ outside.spawnCodex = .ok server) ∧
        ∃ value, (outside.request server method params).2 = .ok value := by
  unfold codexRequest
  constructor
  · rintro ⟨value, m', h⟩
    obtain ⟨server, m₁, hserver, hrest⟩ := exec_bind_of_ok h
    rw [exec_bind_ok (exec_modify _ m₁), exec_given] at hrest
    exact ⟨server, codexServer_ok_iff.mp ⟨m₁, hserver⟩, value, (Prod.mk.inj hrest).1⟩
  rintro ⟨server, hserver, value, hvalue⟩
  obtain ⟨m₁, hexec⟩ := codexServer_ok_iff.mpr hserver
  have hanswer := exec_given (outside.request server method params).2
    { m₁ with
      codex := m₁.codex.insert profile.id (outside.request server method params).1 }
  rw [hvalue] at hanswer
  rw [exec_bind_ok hexec, exec_bind_ok (exec_modify _ m₁), hvalue]
  exact ⟨value, _, hanswer⟩

theorem exec_bind_pure_ok_iff {α β : Type} {a : ProviderM Server α} {f : α → β} :
    (∃ b m', exec (a >>= fun x => pure (f x)) m = (.ok b, m')) ↔
      ∃ x m', exec a m = (.ok x, m') := by
  constructor
  · rintro ⟨b, m', h⟩
    obtain ⟨x, m₁, hfirst, -⟩ := exec_bind_of_ok h
    exact ⟨x, m₁, hfirst⟩
  · rintro ⟨x, m', h⟩
    exact ⟨f x, m', exec_bind_ok h⟩

theorem status_ok_iff {profileId : String} :
    (∃ installation m', exec (status store data outside profileId) m = (.ok installation, m')) ↔
      StatusAnswered data outside m profileId := by
  unfold status StatusAnswered AccountStore.profile
  cases data.find profileId with
  | none =>
    constructor
    · rintro ⟨installation, m', h⟩
      cases h
    · rintro ⟨profile, h, -⟩
      cases h
  | some profile =>
    rw [exec_bind_ok (exec_given (.ok profile) m)]
    simp only [Option.some.injEq, exists_eq_left']
    cases profile.provider with
    | codex => exact exec_bind_pure_ok_iff.trans codexRequest_ok_iff
    | claude =>
      refine exec_bind_pure_ok_iff.trans ?_
      rw [exec_given]
      simp only [Prod.mk.injEq, exists_and_left, exists_eq', and_true]

end

/-! ### Polls -/

section
variable {isWhitespace : Char → Bool} {store : AccountStore} {data : AccountsFile}
variable {outside : ProviderOutside Server} {m m' : ProviderManager Server}
variable {loginId : String} {handle : LoginHandle} {result : Except NodeError LoginChallenge}

theorem insertLogin_removeLogin (handle : LoginHandle) (m₁ : ProviderManager Server)
    (hsame : SameLogins (m.removeLogin loginId) m₁) :
    (m₁.insertLogin loginId handle).logins.lookup loginId = some handle ∧
      (m₁.insertLogin loginId handle).dropped = m.dropped := by
  have hgone : m₁.logins.lookup loginId = none := by
    rw [hsame.logins]
    exact AList.lookup_erase _ _
  unfold ProviderManager.insertLogin
  rw [hgone]
  exact ⟨AList.lookup_insert _, hsame.dropped⟩

theorem challenge_unchanged {challenge : LoginChallenge} (hcomplete : challenge.complete = false)
    (hsuccess : challenge.success = false) :
    { challenge with complete := false, success := false } = challenge := by
  cases challenge
  subst hcomplete hsuccess
  rfl

/-- What a poll of a login that is there comes to. -/
inductive Polled (data : AccountsFile) (outside : ProviderOutside Server)
    (m : ProviderManager Server) (loginId : String) (handle : LoginHandle) :
    Except NodeError LoginChallenge → ProviderManager Server → Prop
  | failed (error : NodeError) (m' : ProviderManager Server)
      (h : ¬LoginAnswered data outside m handle) (hgone : m'.logins.lookup loginId = none) :
      Polled data outside m loginId handle (.error error) m'
  | complete (challenge : LoginChallenge) (m' : ProviderManager Server)
      (h : LoginAnswered data outside m handle) (hcomplete : challenge.complete = true) :
      Polled data outside m loginId handle (.ok challenge) m'
  | pending (challenge : LoginChallenge) (m' : ProviderManager Server)
      (h : LoginAnswered data outside m handle) (hcomplete : challenge.complete = false)
      (hkept : m'.logins.lookup loginId = some handle) (hdropped : m'.dropped = m.dropped) :
      Polled data outside m loginId handle (.ok challenge) m'

theorem polled (hpending : Pending m) (hlogin : m.logins.lookup loginId = some handle)
    (h : exec (pollLogin isWhitespace store data outside loginId) m = (result, m')) :
    Polled data outside m loginId handle result m' := by
  unfold pollLogin at h
  rw [exec_bind_ok (exec_get m), hlogin] at h
  rw [exec_bind_ok (exec_modify _ m)] at h
  have hgone : (m.removeLogin loginId).logins.lookup loginId = none := AList.lookup_erase _ _
  unfold pollHandle at h
  cases handle with
  | codex profileId challenge =>
    have hsame := SameLogins.status store data outside profileId
    have hanswered : (∃ installation m', exec (status store data outside profileId)
        (m.removeLogin loginId) = (.ok installation, m')) ↔
        LoginAnswered data outside m (.codex profileId challenge) := status_ok_iff store
    rcases exec_bind_cases h with ⟨installation, m₁, hstatus, hrest⟩ | ⟨error, hstatus, rfl⟩
    · have hnow := hanswered.mp ⟨installation, m₁, hstatus⟩
      by_cases hready : installation.status = .ready
      · simp only [hready, decide_true, Bool.not_true, Bool.false_eq_true, if_false] at hrest
        obtain ⟨rfl, rfl⟩ := Prod.mk.inj hrest
        exact .complete _ _ hnow rfl
      simp only [hready, decide_false, Bool.not_false, if_true] at hrest
      obtain ⟨hcomplete, hsuccess⟩ := hpending loginId profileId challenge hlogin
      rw [challenge_unchanged hcomplete hsuccess] at hrest
      obtain ⟨rfl, rfl⟩ := Prod.mk.inj hrest
      have hback := insertLogin_removeLogin (.codex profileId challenge) m₁ (hsame.of_exec hstatus)
      exact .pending _ _ hnow hcomplete hback.1 hback.2
    refine .failed _ _ (fun hnow => ?_) ?_
    · obtain ⟨installation, m₁, hok⟩ := hanswered.mpr hnow
      cases hok.symm.trans hstatus
    · rw [(hsame.of_exec hstatus).logins]
      exact hgone
  | interactive profileId provider child stdin =>
    cases hwait : outside.tryWait with
    | error error =>
      rw [hwait] at h
      obtain ⟨rfl, rfl⟩ := Prod.mk.inj h
      refine .failed _ _ ?_ hgone
      rintro ⟨exit, hexit⟩
      cases hwait.symm.trans hexit
    | ok exit =>
      rw [hwait] at h
      cases exit with
      | none =>
        obtain ⟨rfl, rfl⟩ := Prod.mk.inj h
        have hback := insertLogin_removeLogin (.interactive profileId provider child stdin) _
          (SameLogins.steps.refl (m.removeLogin loginId))
        exact .pending _ _ ⟨none, hwait⟩ rfl hback.1 hback.2
      | some status =>
        obtain ⟨rfl, rfl⟩ := Prod.mk.inj h
        exact .complete _ _ ⟨some status, hwait⟩ rfl

theorem AddsLogins.pollHandle :
    Moves AddsLogins (pollHandle isWhitespace store data outside loginId handle) := by
  unfold Accounts.pollHandle
  cases handle with
  | codex profileId challenge =>
    refine Moves.bind
      (fun m => (SameLogins.status store data outside profileId m).adds) fun installation => ?_
    by_cases hready : installation.status = .ready
    · simp only [hready, decide_true, Bool.not_true, Bool.false_eq_true, if_false]
      exact Moves.pure _
    simp only [hready, decide_false, Bool.not_false, if_true]
    refine Moves.bind (Moves.modify fun m => ?_) fun _ => Moves.pure _
    refine AddsLogins.insertLogin _ fun _ _ hhandle => ?_
    cases hhandle
    exact ⟨rfl, rfl⟩
  | interactive profileId provider child stdin =>
    dsimp only
    split
    · exact Moves.bind (AddsLogins.dropHandle _) fun _ => Moves.throw _
    split
    · refine Moves.bind (Moves.modify fun m => ?_) fun _ => Moves.pure _
      exact AddsLogins.insertLogin _ fun _ _ h => by cases h
    · exact Moves.bind (AddsLogins.dropHandle _) fun _ => Moves.pure _

theorem AddsLogins.cancelHandle : Moves AddsLogins (cancelHandle outside loginId handle) := by
  cases handle with
  | codex profileId challenge =>
    refine Moves.get_bind fun m => ?_
    cases m.codex.lookup profileId with
    | none => exact AddsLogins.steps.refl m
    | some server => exact SameLogins.adds ⟨rfl, rfl⟩
  | interactive profileId provider child stdin =>
    exact Moves.bind (AddsLogins.dropHandle _) fun _ => Moves.given _

/-- All but one login are kept, and those there are stay pending. -/
structure KeepsOthers (loginId : String) (m m' : ProviderManager Server) : Prop where
  kept : ∀ other, other ≠ loginId → other ∈ m.logins → other ∈ m'.logins
  pending : Pending m → Pending m'

theorem AddsLogins.keepsOthers (h : AddsLogins m m') : KeepsOthers loginId m m' :=
  ⟨fun other _ => h.kept other, h.pending⟩

theorem KeepsOthers.of_removeLogin (h : AddsLogins (m.removeLogin loginId) m') :
    KeepsOthers loginId m m' := by
  constructor
  · intro other hne hother
    exact h.kept other (AList.mem_erase.mpr ⟨hne, hother⟩)
  · intro hm
    refine h.pending fun other profileId challenge hlogin => ?_
    exact hm other profileId challenge (Table.lookup_erase_cases hlogin).2

theorem KeepsOthers.pollLogin :
    Moves (KeepsOthers loginId) (pollLogin isWhitespace store data outside loginId) := by
  refine Moves.get_bind fun m => ?_
  cases m.logins.lookup loginId with
  | none => exact (AddsLogins.steps.refl m).keepsOthers
  | some handle =>
    rw [exec_bind_ok (exec_modify _ m)]
    exact KeepsOthers.of_removeLogin (AddsLogins.pollHandle (m.removeLogin loginId))

theorem KeepsOthers.cancelLogin : Moves (KeepsOthers loginId) (cancelLogin outside loginId) := by
  refine Moves.get_bind fun m => ?_
  cases m.logins.lookup loginId with
  | none => exact (AddsLogins.steps.refl m).keepsOthers
  | some handle =>
    rw [exec_bind_ok (exec_modify _ m)]
    exact KeepsOthers.of_removeLogin (AddsLogins.cancelHandle (m.removeLogin loginId))

end

/-! ### Runs -/

/-- A request served: the manager before and after, and the answer. -/
abbrev ProviderStep (Server : Type) : Type :=
  Taken (ProviderManager Server) (ProviderCall Server) (Except NodeError ProviderReply)

/-- What becomes of the logins when a request is served. -/
structure LoginsKept (e : ProviderStep Server) : Prop where
  /-- A poll that fails leaves the login as it was, and lets go of no command. -/
  failed : ∀ loginId handle error, e.input.request = .pollLogin loginId →
    e.before.logins.lookup loginId = some handle → e.output = .error error →
    e.after.logins.lookup loginId = some handle ∧ e.after.dropped = e.before.dropped
  /-- So does one that finds it still going on. -/
  pending : ∀ loginId handle challenge, e.input.request = .pollLogin loginId →
    e.before.logins.lookup loginId = some handle → e.output = .ok (.challenge challenge) →
    challenge.complete = false →
    e.after.logins.lookup loginId = some handle ∧ e.after.dropped = e.before.dropped
  /-- A login goes with the poll that finds it complete, or with its cancellation. -/
  removed : ∀ loginId, loginId ∈ e.before.logins → loginId ∉ e.after.logins →
    (e.input.request = .pollLogin loginId ∧
      ∃ challenge, e.output = .ok (.challenge challenge) ∧ challenge.complete = true) ∨
    e.input.request = .cancelLogin loginId

/-- If this polls a login that is there, what the poll waits for does not fail. -/
def PollAnswered (m : ProviderManager Server) (call : ProviderCall Server) : Prop :=
  ∀ loginId handle, call.request = .pollLogin loginId →
    m.logins.lookup loginId = some handle → LoginAnswered call.data call.outside m handle

section
variable {isWhitespace : Char → Bool} {store : AccountStore} {m m' : ProviderManager Server}
variable {call : ProviderCall Server} {loginId : String}

/-- A request that polls and cancels nothing. -/
def ProviderRequest.KeepsAll (request : ProviderRequest) : Prop :=
  ∀ loginId, request ≠ .pollLogin loginId ∧ request ≠ .cancelLogin loginId

theorem Moves.map {α β : Type} {R : ProviderManager Server → ProviderManager Server → Prop}
    {a : ProviderM Server α} (h : Moves R a) (f : α → β) : Moves R (f <$> a) := by
  intro m
  rw [exec_map]
  exact h m

theorem AddsLogins.serveProvider (hkeeps : call.request.KeepsAll) :
    AddsLogins m (serveProvider isWhitespace store m call).1 := by
  have hmoves : Moves AddsLogins (answerProvider isWhitespace store call) := by
    unfold answerProvider
    cases hrequest : call.request with
    | status profileId =>
      exact Moves.map (fun m => (SameLogins.status store call.data call.outside profileId m).adds) _
    | beginLogin params => exact Moves.map (AddsLogins.beginLogin call.data call.outside params) _
    | pollLogin loginId => exact absurd hrequest (hkeeps loginId).1
    | loginInput params =>
      exact Moves.map (fun m => (SameLogins.loginInput call.outside params m).adds) _
    | cancelLogin loginId => exact absurd hrequest (hkeeps loginId).2
    | call params =>
      exact Moves.map (fun m => (SameLogins.call call.data call.outside params m).adds) _
  exact hmoves m

theorem serveProvider_pollLogin (hrequest : call.request = .pollLogin loginId) :
    serveProvider isWhitespace store m call =
      ((exec (pollLogin isWhitespace store call.data call.outside loginId) m).2,
        (exec (pollLogin isWhitespace store call.data call.outside loginId) m).1.map
          .challenge) := by
  unfold serveProvider answerProvider
  rw [hrequest]
  exact congrArg Prod.swap (exec_map _ _ m)

theorem serveProvider_cancelLogin (hrequest : call.request = .cancelLogin loginId) :
    (serveProvider isWhitespace store m call).1 =
      (exec (cancelLogin call.outside loginId) m).2 := by
  unfold serveProvider answerProvider
  rw [hrequest]
  exact congrArg Prod.snd (exec_map _ _ m)

theorem ProviderRequest.kinds (request : ProviderRequest) :
    request.KeepsAll ∨ (∃ loginId, request = .pollLogin loginId) ∨
      ∃ loginId, request = .cancelLogin loginId := by
  unfold KeepsAll
  cases request with
  | pollLogin loginId => exact .inr (.inl ⟨loginId, rfl⟩)
  | cancelLogin loginId => exact .inr (.inr ⟨loginId, rfl⟩)
  | _ => exact .inl (by simp)

theorem Pending.serveProvider (hpending : Pending m) :
    Pending (serveProvider isWhitespace store m call).1 := by
  rcases call.request.kinds with hkeeps | ⟨loginId, hrequest⟩ | ⟨loginId, hrequest⟩
  · exact (AddsLogins.serveProvider hkeeps).pending hpending
  · rw [serveProvider_pollLogin hrequest]
    exact (KeepsOthers.pollLogin m).pending hpending
  · rw [serveProvider_cancelLogin hrequest]
    exact (KeepsOthers.cancelLogin m).pending hpending

theorem loginsKept_of_not_poll (hnot : ∀ loginId, call.request ≠ .pollLogin loginId) :
    LoginsKept (taken (serveProvider isWhitespace store) m call) := by
  refine ⟨fun loginId _ _ h => absurd h (hnot loginId),
    fun loginId _ _ h => absurd h (hnot loginId), fun loginId hbefore hafter => ?_⟩
  rcases call.request.kinds with hkeeps | ⟨polled, hrequest⟩ | ⟨cancelled, hrequest⟩
  · exact absurd ((AddsLogins.serveProvider hkeeps).kept loginId hbefore) hafter
  · exact absurd hrequest (hnot polled)
  by_cases hsame : loginId = cancelled
  · exact .inr (hsame ▸ hrequest)
  refine absurd ?_ hafter
  show loginId ∈ (serveProvider isWhitespace store m call).1.logins
  rw [serveProvider_cancelLogin hrequest]
  exact (KeepsOthers.cancelLogin m).kept loginId hsame hbefore

theorem loginsKept_poll_iff (hpending : Pending m) (hrequest : call.request = .pollLogin loginId) :
    LoginsKept (taken (serveProvider isWhitespace store) m call) ↔ PollAnswered m call := by
  have hserve : serveProvider isWhitespace store m call = _ := serveProvider_pollLogin hrequest
  have hothers : KeepsOthers loginId m
      (exec (pollLogin isWhitespace store call.data call.outside loginId) m).2 :=
    KeepsOthers.pollLogin m
  cases hexec : exec (pollLogin isWhitespace store call.data call.outside loginId) m with
  | mk result m' =>
    rw [hexec] at hserve hothers
    unfold taken
    rw [hserve]
    have hother : ∀ other, other ∈ m.logins → other ∉ m'.logins → other = loginId := by
      intro other hbefore hafter
      by_contra hne
      exact hafter (hothers.kept other hne hbefore)
    cases hlogin : m.logins.lookup loginId with
    | none =>
      refine iff_of_true ⟨?_, ?_, ?_⟩ ?_
      · intro other handle error hpoll hfound
        cases hrequest.symm.trans hpoll
        cases hlogin.symm.trans hfound
      · intro other handle challenge hpoll hfound
        cases hrequest.symm.trans hpoll
        cases hlogin.symm.trans hfound
      · intro other hbefore hafter
        obtain rfl := hother other hbefore hafter
        exact absurd hbefore (AList.lookup_eq_none.mp hlogin)
      intro other handle hpoll hfound
      cases hrequest.symm.trans hpoll
      cases hlogin.symm.trans hfound
    | some handle =>
      have hpolled := polled hpending hlogin hexec
      have hnow : PollAnswered m call ↔ LoginAnswered call.data call.outside m handle := by
        constructor
        · intro h
          exact h loginId handle hrequest hlogin
        · intro h other found hpoll hfound
          cases hrequest.symm.trans hpoll
          cases hlogin.symm.trans hfound
          exact h
      rw [hnow]
      cases hpolled with
      | failed error _ h hgone =>
        refine iff_of_false (fun hkept => ?_) h
        have := (hkept.failed loginId handle error hrequest hlogin rfl).1
        cases hgone.symm.trans this
      | complete challenge _ h hcomplete =>
        refine iff_of_true ⟨(fun _ _ _ _ _ h => by cases h), ?_, ?_⟩ h
        · intro other found other' _ _ hreply hpending'
          cases hreply
          cases hcomplete.symm.trans hpending'
        intro other hbefore hafter
        obtain rfl := hother other hbefore hafter
        exact .inl ⟨hrequest, challenge, rfl, hcomplete⟩
      | pending challenge _ h hcomplete hkept hdropped =>
        refine iff_of_true ⟨(fun _ _ _ _ _ h => by cases h), ?_, ?_⟩ h
        · intro other found other' hpoll hfound _ _
          cases hrequest.symm.trans hpoll
          cases hlogin.symm.trans hfound
          exact ⟨hkept, hdropped⟩
        intro other hbefore hafter
        obtain rfl := hother other hbefore hafter
        exact absurd (Table.mem_of_lookup hkept) hafter

theorem loginsKept_iff (hpending : Pending m) :
    LoginsKept (taken (serveProvider isWhitespace store) m call) ↔ PollAnswered m call := by
  by_cases hpoll : ∃ loginId, call.request = .pollLogin loginId
  · obtain ⟨loginId, hrequest⟩ := hpoll
    exact loginsKept_poll_iff hpending hrequest
  · have hnot : ∀ loginId, call.request ≠ .pollLogin loginId := not_exists.mp hpoll
    exact iff_of_true (loginsKept_of_not_poll hnot) fun loginId _ h => absurd h (hnot loginId)

end

/-- In every run, each request keeps the logins just when every poll of a login that is
there is answered by the provider or the process. -/
theorem logins_kept_iff (isWhitespace : Char → Bool) (store : AccountStore)
    (calls : List (ProviderCall Server)) :
    (∀ e ∈ (run (serveProvider isWhitespace store) {} calls).2, LoginsKept e) ↔
      ∀ e ∈ (run (serveProvider isWhitespace store) {} calls).2, PollAnswered e.before e.input := by
  have hempty : Pending ({} : ProviderManager Server) := by
    intro loginId profileId challenge h
    cases h
  have hrun := run_induction (f := serveProvider isWhitespace store)
    (P := fun m past => Pending m ∧ ∀ e ∈ past, LoginsKept e ↔ PollAnswered e.before e.input)
    ⟨hempty, by simp⟩ (by
      rintro m past call ⟨hpending, hpast⟩
      exact ⟨hpending.serveProvider, List.forall_mem_cons.mpr ⟨loginsKept_iff hpending, hpast⟩⟩)
    calls
  exact forall₂_congr hrun.2

/-! ### A login that is lost -/

def beginWork : ProviderCall Unit where
  request := .beginLogin ⟨"work", .deviceCode⟩
  data := workAndHome
  outside :=
    { spawnCodex := .ok ()
      request := fun server _ _ => (server, .ok (.object [("loginId", .string "login-1"),
        ("verificationUrl", .string "https://example.com/device"), ("userCode", .string "AB")])) }

/-- It does not answer the poll in time. -/
def pollWork : ProviderCall Unit where
  request := .pollLogin "login-1"
  data := workAndHome
  outside :=
    { request := fun server _ _ => (server, .error (.provider "Codex account/read timed out")) }

/-- The poll that failed has taken the login with it. -/
theorem failed_poll_loses_login :
    ∃ e ∈ (run (serveProvider Char.isWhitespace workAndHomeStore) {} [beginWork, pollWork]).2,
      e.input.request = .pollLogin "login-1" ∧ "login-1" ∈ e.before.logins ∧
        (∃ error, e.output = .error error) ∧ "login-1" ∉ e.after.logins := by
  refine ⟨_, List.mem_cons_self, rfl, by decide +kernel, ?_, by decide +kernel⟩
  refine ⟨.provider "Codex account/read timed out", ?_⟩
  rfl

end Diri.Accounts
