import Linhello.Common.PathText
import Linhello.Daemon.Deletion
import Linhello.Daemon.UserFootprint
import Linhello.Effect.Guided
import Linhello.Host.Faultless
/-!
# Where the files of a user are

Every path the daemon builds from a user name leads into the directory of that name,
one level below `CONFIG_ROOT`; and the name is the validated one of the request, or
one the directory listing of `CONFIG_ROOT` returned (`paths_contained`).
-/

namespace Linhello.Daemon

open Common Linhello.Core Effect Host Host.World Liveness Biometrics

variable {pr : Process} {user : String} {peerUid : Option Nat} {W : Type} {S : Semantics host W}

/-! ## Paths -/

def CONFIG_ROOT : PathText := "/etc/linhello".toList

/-- `CONFIG_ROOT.join(user)`. -/
def userDirText (user : String) : PathText := CONFIG_ROOT.join user.toList

/-- `CONFIG_ROOT.join(user).join(file)`. -/
def userFileText (user : String) (f : UserFile) : PathText :=
  (userDirText user).join f.fileName.toList

def configRootComponents : List PathText := ["etc".toList, "linhello".toList]

theorem isComponent_of_validateUser (h : validateUser user = .ok ()) : IsComponent user.toList := by
  unfold validateUser at h
  split at h
  · cases h
  · rename_i hvalid
    simp only [not_or] at hvalid
    obtain ⟨hempty, hdot, hdotdot, hslash, -, -⟩ := hvalid
    have hne : ∀ s : String, user ≠ s → user.toList ≠ s.toList :=
      fun s hs heq => hs (String.toList_inj.1 heq)
    exact ⟨hne "" hempty, hne "." hdot, hne ".." hdotdot, hslash⟩

theorem isComponent_fileName (f : UserFile) : IsComponent f.fileName.toList := by
  cases f <;> exact ⟨by decide, by decide, by decide, by decide⟩

/-- The directory of a user is one level below `CONFIG_ROOT`. -/
theorem components_userDirText (h : IsComponent user.toList) :
    (userDirText user).components = configRootComponents ++ [user.toList] := by
  have hroot : CONFIG_ROOT.components = configRootComponents := by decide
  rw [userDirText, components_join h (by decide), hroot]

theorem components_userFileText (h : IsComponent user.toList) (f : UserFile) :
    (userFileText user f).components =
      configRootComponents ++ [user.toList, f.fileName.toList] := by
  have hlast : (userDirText user).getLast? ≠ some '/' := getLast?_join h (by decide)
  rw [userFileText, components_join (isComponent_fileName f) hlast, components_userDirText h,
    List.append_assoc]
  rfl

/-- A path inside the directory of a user: the directory itself, or a file in it. -/
def InUserDir (user : String) (text : PathText) : Prop :=
  text.components = configRootComponents ++ [user.toList] ∨
    ∃ f : UserFile, text.components = configRootComponents ++ [user.toList, f.fileName.toList]

/-- The path of an operation that was built from a user name, with that name. -/
def userPath? : Op → Option (String × PathText)
  | .pathExists (.user u f) | .read (.user u f) | .write (.user u f) _
  | .setPermissions (.user u f) | .removeFile (.user u f) => some (u, userFileText u f)
  | .templateLen u false => some (u, userFileText u .embeddingEnc)
  | .templateLen u true => some (u, userFileText u .embeddingBin)
  | .createDirAll (some u) | .readUserDir u | .removeDir u => some (u, userDirText u)
  | _ => none

theorem inUserDir_of_userPath? {o : Op} {u : String} {text : PathText}
    (hpath : userPath? o = some (u, text)) (h : IsComponent u.toList) : InUserDir u text := by
  have hfile : ∀ f, userFileText u f = text → InUserDir u text := by
    rintro f rfl
    exact .inr ⟨f, components_userFileText h f⟩
  have hdir : userDirText u = text → InUserDir u text := by
    rintro rfl
    exact .inl (components_userDirText h)
  cases o with
  | pathExists p | read p | write p d | setPermissions p | removeFile p =>
      cases p with
      | root f => cases hpath
      | user v f =>
          obtain ⟨rfl, htext⟩ := Prod.mk.inj (Option.some.inj hpath)
          exact hfile f htext
  | templateLen v legacy =>
      cases legacy with
      | false =>
          obtain ⟨rfl, htext⟩ := Prod.mk.inj (Option.some.inj hpath)
          exact hfile .embeddingEnc htext
      | true =>
          obtain ⟨rfl, htext⟩ := Prod.mk.inj (Option.some.inj hpath)
          exact hfile .embeddingBin htext
  | createDirAll v =>
      cases v with
      | none => cases hpath
      | some v =>
          obtain ⟨rfl, htext⟩ := Prod.mk.inj (Option.some.inj hpath)
          exact hdir htext
  | readUserDir v | removeDir v =>
      obtain ⟨rfl, htext⟩ := Prod.mk.inj (Option.some.inj hpath)
      exact hdir htext
  | _ => cases hpath

theorem eq_of_inUserDir {u v : String} {text : PathText} (hu : InUserDir u text)
    (hv : InUserDir v text) : u = v := by
  have hthird : ∀ {n : String}, InUserDir n text → text.components[2]? = some n.toList := by
    rintro n (h | ⟨f, h⟩) <;> rw [h] <;> rfl
  exact String.toList_inj.1 (Option.some.inj ((hthird hu).symm.trans (hthird hv)))

/-! ## Footprints -/

/-- Operations whose user names satisfy `U`. -/
def reaches (U : String → Prop) (o : Op) : Prop := ∀ u text, userPath? o = some (u, text) → U u

theorem reaches_of_userPath?_none {U : String → Prop} {o : Op} (h : userPath? o = none) :
    reaches U o := by
  intro u text hpath
  rw [h] at hpath
  cases hpath

theorem reaches_of_userOp {U : String → Prop} {F : UserFile → Prop} (hU : U user) {o : Op}
    (h : userOp user F o) : reaches U o := by
  have hparent : ∀ {p : Path} {u : String} {f : UserFile}, p = .user u f →
      p.parent = none ∨ p.parent = some user → u = user := by
    rintro p u f rfl (hp | hp)
    · cases hp
    · exact Option.some.inj hp
  intro u text hpath
  suffices huser : u = user by rwa [huser]
  cases o with
  | pathExists p | read p =>
      cases p with
      | root f => cases hpath
      | user v f =>
          obtain ⟨rfl, -⟩ := Prod.mk.inj (Option.some.inj hpath)
          exact hparent rfl h
  | write p d | setPermissions p | removeFile p =>
      cases p with
      | root f => cases hpath
      | user v f =>
          obtain ⟨rfl, -⟩ := Prod.mk.inj (Option.some.inj hpath)
          obtain ⟨g, hp, -⟩ := h
          cases hp
          rfl
  | templateLen v legacy =>
      obtain rfl : v = user := h
      cases legacy <;> exact (Prod.mk.inj (Option.some.inj hpath)).1.symm
  | createDirAll v =>
      obtain rfl : v = some user := h.1
      exact (Prod.mk.inj (Option.some.inj hpath)).1.symm
  | _ => first | exact h.elim | cases hpath

theorem reaches_of_looks {U : String → Prop} {F : Path → Prop}
    (hF : ∀ u f, F (.user u f) → U u) {o : Op} (h : looks F o) : reaches U o := by
  intro u text hpath
  cases o with
  | pathExists p | read p =>
      cases p with
      | root f => cases hpath
      | user v f =>
          obtain ⟨rfl, -⟩ := Prod.mk.inj (Option.some.inj hpath)
          exact hF _ _ h
  | _ => first | exact h.elim | cases hpath

/-- The names a listing of `CONFIG_ROOT` returns satisfy `L`. -/
def lists (L : String → Prop) (e : Event host) : Prop :=
  ∀ names, e = ⟨.readRoot, .ok names⟩ → ∀ n ∈ names, L n

section Listing

variable {L U : String → Prop}

theorem guided_enrolledProfiles (hLU : ∀ n, L n → U n) :
    enrolledProfiles.Guided (lists L) (reaches U) fun names => ∀ n ∈ names, L n := by
  refine guided_perform_bind (reaches_of_userPath?_none rfl) fun listed hlisted => ?_
  cases listed with
  | error e => exact .ret fun _ h => absurd h List.not_mem_nil
  | ok names =>
      have hnames : ∀ n ∈ names, L n := hlisted names rfl
      refine guided_bind (guided_filterM fun n hn => ?_) fun enrolled henrolled => ?_
      · refine Program.Only.guided ?_
        have hreach : ∀ f, reaches U (.pathExists (.user n f)) := by
          intro f u text hpath
          obtain ⟨rfl, -⟩ := Prod.mk.inj (Option.some.inj hpath)
          exact hLU _ (hnames _ hn)
        refine only_bind (only_perform (hreach _)) fun present => ?_
        split
        · exact .ret _
        · exact only_perform (hreach _)
      · refine .ret fun n hn => hnames n (henrolled n ?_)
        exact (List.mem_insertionSort _).1 hn

theorem reaches_profileSampleCount (hU : U user) : (profileSampleCount user).Only (reaches U) := by
  have hreach : ∀ legacy, reaches U (.templateLen user legacy) := fun legacy =>
    @reaches_of_userOp user U anyFile hU _ rfl
  refine only_bind (only_perform (hreach false)) fun len => ?_
  cases len with
  | ok n => exact .ret _
  | error e =>
      refine only_bind (only_perform (hreach true)) fun legacy => ?_
      cases legacy <;> exact .ret _

theorem reaches_readProfileName (hU : U user) : (readProfileName user).Only (reaches U) := by
  refine only_bind (only_perform (@reaches_of_userOp user U anyFile hU _ (.inr rfl))) fun r => ?_
  split <;> exact .ret _

theorem reaches_peerMayActAs : (peerMayActAs peerUid user).Only (reaches U) :=
  (looks_peerMayActAs (F := fun _ => False) peerUid user).imp fun _ =>
    reaches_of_looks fun _ _ h => h.elim

theorem guided_doListProfiles (hLU : ∀ n, L n → U n) :
    (doListProfiles peerUid).Guided (lists L) (reaches U) fun _ => True := by
  refine guided_bind (guided_enrolledProfiles hLU) fun names hnames => ?_
  refine guided_bind (guided_mapM fun n hn => Program.Only.guided ?_) fun _ _ => .ret trivial
  have hU : U n := hLU n (hnames n hn)
  refine only_bind reaches_peerMayActAs fun mayAct => ?_
  have hrest : ∀ hasPassword : Bool, Program.Only (reaches U) (do
      let name ← readProfileName n
      let samples ← profileSampleCount n
      pure ({ user := n, name := name, samples := samples, hasPassword := hasPassword } :
        ProfileInfo)) := fun hasPassword =>
    only_bind (reaches_readProfileName hU) fun _ =>
      only_bind (reaches_profileSampleCount hU) fun _ => .ret _
  simp only
  split
  · exact only_bind (only_perform (@reaches_of_userOp n U anyFile hU _ (.inr rfl))) hrest
  · exact only_bind only_pure hrest

theorem guided_doIdentify (hLU : ∀ n, L n → U n) :
    (doIdentify pr).Guided (lists L) (reaches U) fun _ => True := by
  refine guided_bind (guided_enrolledProfiles hLU) fun names hnames => ?_
  split
  · exact .ret trivial
  · have hcapture : (captureAndEmbed pr).run.Only (reaches U) :=
      only_exceptT_bind ((looks_captureAndEmbedSignals (F := fun _ => False) pr).imp fun _ =>
        reaches_of_looks fun _ _ h => h.elim) fun _ => .ret _
    refine guided_bind hcapture.guided fun live _ => ?_
    cases live with
    | error e => exact .ret trivial
    | ok live =>
        refine guided_bind (guided_mapM fun n hn => Program.Only.guided ?_) fun scored _ => ?_
        · have hU : U n := hLU n (hnames n hn)
          refine only_bind ((userOp_loadUserSamples (F := anyFile) trivial trivial trivial).imp
            fun _ => reaches_of_userOp hU)
            fun samples => ?_
          cases samples with
          | error e => exact .ret _
          | ok samples => exact only_bind (reaches_readProfileName hU) fun _ => .ret _
        · simp only
          split <;> exact .ret trivial

theorem guided_doSetProfileName (hLU : ∀ n, L n → U n) (hU : U user) (name : String) :
    (doSetProfileName user name).Guided (lists L) (reaches U) fun _ => True := by
  have hreach : ∀ {o : Op}, userOp user anyFile o → reaches U o := reaches_of_userOp hU
  refine guided_bind (guided_enrolledProfiles hLU) fun names _ => ?_
  split
  · exact .ret trivial
  · refine Program.Only.guided (only_bind ?_ fun r => ?_)
    · unfold writeProfileName
      simp only
      split
      · refine only_bind (only_perform (hreach ⟨_, rfl, trivial⟩)) fun r => ?_
        split <;> exact .ret _
      · refine only_bind (only_perform (hreach ⟨_, rfl, trivial⟩)) fun r => ?_
        cases r with
        | ok u => exact only_perform (hreach ⟨_, rfl, trivial⟩)
        | error e => exact .ret _
    · cases r <;> exact .ret _

private theorem reaches_removeDirAll (hU : U user) : (removeDirAll user).run.Only (reaches U) := by
  have hdir : ∀ {o : Op}, userPath? o = some (user, userDirText user) → reaches U o := by
    intro o hpath u text hpath'
    rw [hpath] at hpath'
    rwa [← (Prod.mk.inj (Option.some.inj hpath')).1]
  refine only_exceptT_bind (only_perform (hdir rfl)) fun entries => ?_
  induction entries with
  | nil => exact only_perform (hdir rfl)
  | cons f rest ih =>
      have hunlink : reaches U (.removeFile (.user user f)) :=
        @reaches_of_userOp user U anyFile hU _ ⟨f, rfl, trivial⟩
      exact only_exceptT_bind (only_map (only_perform hunlink)) fun _ => ih

theorem guided_doDeleteProfile (hLU : ∀ n, L n → U n) (hU : U user) :
    (doDeleteProfile user).Guided (lists L) (reaches U) fun _ => True := by
  refine guided_bind (guided_enrolledProfiles hLU) fun names _ => ?_
  split
  · exact .ret trivial
  · refine Program.Only.guided (only_bind (reaches_profileSampleCount hU) fun samples => ?_)
    refine only_bind (reaches_removeDirAll hU) fun r => ?_
    cases r with
    | error e => exact .ret _
    | ok u => exact only_bind (only_perform (reaches_of_userPath?_none rfl)) fun _ => .ret _

end Listing

/-! ## The requests -/

/-- The names a request works on: its own, once validated, and those of a listing. -/
def Named (req : Request) (L : String → Prop) (u : String) : Prop :=
  (req.user? = some u ∧ validateUser u = .ok ()) ∨ L u

/-! ### Requests that name no user -/

def userless (o : Op) : Prop := userPath? o = none

theorem userless_of_systemOp {o : Op} (h : systemOp o) : userless o := by
  have hroot : ∀ p : Path, p.parent = none → ∃ f, p = .root f := by
    intro p hp
    cases p with
    | root f => exact ⟨f, rfl⟩
    | user u f => cases hp
  cases o with
  | pathExists p | read p =>
      obtain ⟨f, rfl⟩ := hroot p h
      rfl
  | _ => first | exact h.elim | rfl

private theorem userless_doReseal : doReseal.Only userless := by
  refine only_bind ?_ fun _ => .ret _
  refine only_exceptT_bind (only_exceptT_lift (only_perform rfl)) fun buf => ?_
  refine only_exceptT_bind (only_fallible (only_perform rfl)) fun env => ?_
  refine only_exceptT_bind ?_ fun _ => .ret _
  exact only_exceptT_bind (only_io (only_perform rfl)) fun _ => only_io (only_perform rfl)

/-! ### Dispatch -/

theorem guided_dispatch {L : String → Prop} (req : Request) :
    (dispatch pr req peerUid).Guided (lists L) (reaches (Named req L)) fun _ => True := by
  have hown : ∀ {user : String} {handler : Proc Response}, req.user? = some user →
      handler.Only (userOp user anyFile) → validateUser user = .ok () →
      handler.Guided (lists L) (reaches (Named req L)) fun _ => True :=
    fun hreq honly hvalid => (honly.imp fun _ => reaches_of_userOp (.inl ⟨hreq, hvalid⟩)).guided
  have hLU : ∀ n, L n → Named req L n := fun _ hn => .inr hn
  have hfree : ∀ {handler : Proc Response}, handler.Only userless →
      handler.Guided (lists L) (reaches (Named req L)) fun _ => True :=
    fun honly => (honly.imp fun _ => reaches_of_userPath?_none).guided
  cases req with
  | status => exact hfree (system_doStatus.imp fun _ => userless_of_systemOp)
  | enroll user reset =>
    exact guided_rootOnly (hown rfl (userOp_doEnroll trivial trivial trivial trivial trivial reset))
  | verify user =>
      refine guided_withUser fun hvalid => ?_
      refine guided_bind reaches_peerMayActAs.guided fun mayAct _ => ?_
      split
      · exact .ret trivial
      · exact hown rfl (userOp_doVerify trivial trivial trivial) hvalid
  | «unseal» user =>
      exact guided_rootOnly (hown rfl (userOp_releaseIfMatched trivial trivial trivial
        userOp_unsealKeyringSecret))
  | reseal =>
      simp only [dispatch]
      split
      · exact .ret trivial
      · exact hfree userless_doReseal
  | sealPassword user password =>
      exact guided_rootOnly (hown rfl (userOp_doSealPassword trivial password))
  | unsealPassword user =>
      exact guided_rootOnly (hown rfl (userOp_releaseIfMatched trivial trivial trivial
        userOp_unsealPassword))
  | authenticate user service =>
      exact guided_ownAccount reaches_peerMayActAs
        (hown rfl (userOp_doAuthenticate trivial trivial trivial service _))
  | authIntent user service =>
      exact guided_ownAccount reaches_peerMayActAs
        (hown rfl (userOp_doAuthIntent service _))
  | policyStatus user =>
      exact guided_ownAccount reaches_peerMayActAs
        (hown rfl userOp_doPolicyStatus)
  | diagnose => exact hfree (system_doDiagnose.imp fun _ => userless_of_systemOp)
  | livenessTest => exact hfree (system_doLivenessTest.imp fun _ => userless_of_systemOp)
  | resealUserEnvelopes user =>
      exact guided_rootOnly (hown rfl (userOp_doResealUserEnvelopes trivial trivial))
  | probe => exact hfree (only_bind (only_perform rfl) fun _ => .ret _)
  | positionSample => exact hfree (only_bind (only_perform rfl) fun _ => .ret _)
  | listProfiles => exact guided_doListProfiles hLU
  | identify =>
      simp only [dispatch]
      split
      · exact .ret trivial
      · exact guided_doIdentify hLU
  | setProfileName user name =>
      exact guided_rootOnly fun hvalid => guided_doSetProfileName hLU (.inl ⟨rfl, hvalid⟩) name
  | deleteProfile user =>
      exact guided_rootOnly fun hvalid => guided_doDeleteProfile hLU (.inl ⟨rfl, hvalid⟩)
  | saveRecovery user passphrase =>
      exact guided_rootOnly (hown rfl (userOp_doSaveRecovery trivial passphrase))
  | restoreFromRecovery user passphrase =>
      exact guided_rootOnly (hown rfl (userOp_doRestoreFromRecovery trivial passphrase))

/-! ### Names that are not accepted -/

section Invalid

variable {e : LinuxHelloError} {op : String} {handler : Proc Response}

/-- At most the account database is asked about such a name. -/
def asksAccount (user : String) (o : Op) : Prop := o = .uidForName user

theorem asksAccount_peerMayActAs : (peerMayActAs peerUid user).Only (asksAccount user) := by
  unfold peerMayActAs
  split
  · exact .ret _
  · exact only_bind (only_perform rfl) fun _ => .ret _
  · exact .ret _

theorem refused_withUser (hinvalid : validateUser user = .error e) :
    withUser user handler = pure (.error e.display) := by
  rw [withUser, hinvalid]

theorem refused_rootOnly (hinvalid : validateUser user = .error e) :
    ∃ msg, rootOnly peerUid op user handler = pure (.error msg) := by
  unfold rootOnly
  split
  · exact ⟨_, rfl⟩
  · exact ⟨_, refused_withUser hinvalid⟩

private theorem refused_ownAccount (hinvalid : validateUser user = .error e) :
    (ownAccount peerUid op user handler).Only (asksAccount user) ∧
      (ownAccount peerUid op user handler).Returns fun resp => resp.isError = true := by
  unfold ownAccount
  rw [refused_withUser hinvalid]
  constructor
  · refine only_bind asksAccount_peerMayActAs fun mayAct => ?_
    split <;> exact .ret _
  · refine returns_bind fun mayAct => ?_
    split <;> exact .ret rfl

/-- A request that names an account it does not accept stops at the check. -/
theorem refused_dispatch {req : Request} (hreq : req.user? = some user)
    (hinvalid : validateUser user = .error e) :
    (dispatch pr req peerUid).Only (asksAccount user) ∧
      (dispatch pr req peerUid).Returns fun resp => resp.isError = true := by
  have hroot : ∀ {op : String} {handler : Proc Response},
      (rootOnly peerUid op user handler).Only (asksAccount user) ∧
        (rootOnly peerUid op user handler).Returns fun resp => resp.isError = true := by
    intro op handler
    obtain ⟨msg, hmsg⟩ := @refused_rootOnly user peerUid e op handler hinvalid
    rw [hmsg]
    exact ⟨.ret _, .ret rfl⟩
  cases req with
  | verify v =>
      obtain rfl : v = user := Option.some.inj hreq
      rw [dispatch, refused_withUser hinvalid]
      exact ⟨.ret _, .ret rfl⟩
  | authenticate v service | authIntent v service | policyStatus v =>
      obtain rfl : v = user := Option.some.inj hreq
      exact refused_ownAccount hinvalid
  | enroll v _ | «unseal» v | sealPassword v _ | unsealPassword v | resealUserEnvelopes v
  | setProfileName v _ | deleteProfile v | saveRecovery v _ | restoreFromRecovery v _ =>
      obtain rfl : v = user := Option.some.inj hreq
      exact hroot
  | _ => cases hreq

end Invalid

/-! ### Removals -/

def removes : Op → Bool
  | .removeFile _ | .removeDir _ => true
  | _ => false

theorem userPath?_of_deleteOp {o : Op} (h : deleteOp user o) (hremoves : removes o = true) :
    ∃ text, userPath? o = some (user, text) := by
  cases o with
  | removeFile p =>
      cases p with
      | root f => cases h
      | user v f =>
          obtain rfl : v = user := Option.some.inj h
          exact ⟨_, rfl⟩
  | removeDir v =>
      obtain rfl : v = user := h
      exact ⟨_, rfl⟩
  | _ => cases hremoves

/-! ## The law -/

/-- A listing of `CONFIG_ROOT` in the run returned the name. -/
def Listed (events : List (Event host)) (name : String) : Prop :=
  ∃ names, (⟨.readRoot, .ok names⟩ : Event host) ∈ events ∧ name ∈ names

private theorem lists_listed {events : List (Event host)} {e : Event host} (he : e ∈ events) :
    lists (Listed events) e := by
  rintro names rfl n hn
  exact ⟨names, he, hn⟩

/-- In every run, as long as the entries of `CONFIG_ROOT` have proper names, the paths
of users stay in the users' directories; a name that is not accepted leads to no file
access; two accepted names share no path; and a deletion removes nothing elsewhere. -/
theorem paths_contained {w w' : W} {req : Request} {resp : Response} {events : List (Event host)}
    (h : Exec (recorded S) (dispatch pr req peerUid) (w, []) resp (w', events))
    (hlisting : ∀ e ∈ events, lists (fun n => IsComponent n.toList) e) :
    (∀ e ∈ events, ∀ u text, userPath? e.1 = some (u, text) →
        InUserDir u text ∧ Named req (Listed events) u) ∧
      (∀ user err, req.user? = some user → validateUser user = .error err →
        resp.isError = true ∧ ∀ e ∈ events, asksAccount user e.1) ∧
      (∀ u v text, validateUser u = .ok () → validateUser v = .ok () → u ≠ v →
        InUserDir u text → ¬ InUserDir v text) ∧
      (∀ user, req = .deleteProfile user → ∀ e ∈ events, removes e.1 = true →
        ∃ text, userPath? e.1 = some (user, text) ∧ InUserDir user text) := by
  have hnew : ∀ {P : Event host → Prop}, (∀ e ∈ events, e ∈ ([] : List (Event host)) ∨ P e) →
      ∀ e ∈ events, P e := fun hall e he => (hall e he).resolve_left List.not_mem_nil
  have hpaths : ∀ e ∈ events, ∀ u text, userPath? e.1 = some (u, text) →
      InUserDir u text ∧ Named req (Listed events) u := by
    intro e he u text hpath
    have hnamed : Named req (Listed events) u :=
      hnew ((guided_dispatch req).events h fun _ => lists_listed) e he u text hpath
    refine ⟨inUserDir_of_userPath? hpath ?_, hnamed⟩
    rcases hnamed with ⟨-, hvalid⟩ | ⟨names, hnames, hu⟩
    · exact isComponent_of_validateUser hvalid
    · exact hlisting _ hnames names rfl u hu
  refine ⟨hpaths, ?_, ?_, ?_⟩
  · intro user err hreq hinvalid
    obtain ⟨honly, hreturns⟩ := @refused_dispatch pr user peerUid _ _ hreq hinvalid
    exact ⟨hreturns.exec h, hnew (honly.recorded h)⟩
  · intro u v text _ _ hne hu hv
    exact hne (eq_of_inUserDir hu hv)
  · rintro user rfl e he hremoves
    have hdelete : (dispatch pr (.deleteProfile user) peerUid).Only (deleteOp user) := by
      simp only [dispatch, rootOnly]
      split
      · exact .ret _
      · unfold withUser
        split
        · exact .ret _
        · exact delete_doDeleteProfile
    obtain ⟨text, hpath⟩ := userPath?_of_deleteOp (hnew (hdelete.recorded h) e he) hremoves
    exact ⟨text, hpath, (hpaths e he user text hpath).1⟩

/-- The event returns no name but that of `alice` in a listing of `CONFIG_ROOT`. -/
def listsAlice (e : Event host) : Bool :=
  match e with
  | ⟨.readRoot, r⟩ =>
      match (r : Except IoError (List String)) with
      | .ok names => names = ["alice"]
      | .error _ => true
  | _ => true

/-- The event reads a file of `alice` or asks whether it is there. -/
def looksAtAlice (e : Event host) : Bool :=
  match userPath? e.1 with
  | some (u, _) => u = "alice"
  | none => false

/-- The profiles are listed: `alice` is the one name of the listing, and what is looked at on
her account lies in her directory. -/
theorem paths_contained_simulated : ∃ resp w' events,
    Exec (recorded (Step simulatedUnseal .none))
      (dispatch simulatedProcess .listProfiles (some 0)) (enrolledWorld "alice", []) resp
      (w', events) ∧
    Listed events "alice" ∧
    (∃ e ∈ events, ∃ text, userPath? e.1 = some ("alice", text) ∧ InUserDir "alice" text) ∧
    ∀ e ∈ events, ∀ u text, userPath? e.1 = some (u, text) → InUserDir u text ∧
    Listed events u := by
  have hrun : ((tracedRun .none (simulatedScript.answer simulatedUnseal) 20
      (dispatch simulatedProcess .listProfiles (some 0))
      (enrolledWorld "alice")).map fun x =>
        (x.2.2.all listsAlice, x.2.2.any looksAtAlice)) = some (true, true) := by
    decide +kernel
  obtain ⟨⟨resp, w', events⟩, htraced, heq⟩ := Option.map_eq_some_iff.1 hrun
  obtain ⟨hlists, hlooks⟩ := Prod.mk.inj heq
  have hexec := exec_of_tracedRun htraced
  have hlisting : ∀ e ∈ events, lists (fun n => IsComponent n.toList) e := by
    rintro e he names rfl n hn
    have hnames : names = ["alice"] := of_decide_eq_true (List.all_eq_true.1 hlists _ he)
    rw [hnames] at hn
    obtain rfl := List.mem_singleton.1 hn
    exact ⟨by decide, by decide, by decide, by decide⟩
  have hpaths : ∀ e ∈ events, ∀ u text, userPath? e.1 = some (u, text) →
      InUserDir u text ∧ Listed events u := by
    intro e he u text hpath
    obtain ⟨hdir, ⟨hasked, -⟩ | hlisted⟩ := (paths_contained hexec hlisting).1 e he u text hpath
    · cases hasked
    · exact ⟨hdir, hlisted⟩
  obtain ⟨e, he, hlook⟩ := List.any_eq_true.1 hlooks
  obtain ⟨text, hpath⟩ : ∃ text, userPath? e.1 = some ("alice", text) := by
    unfold looksAtAlice at hlook
    split at hlook
    · rename_i u text hpath
      obtain rfl : u = "alice" := of_decide_eq_true hlook
      exact ⟨text, hpath⟩
    · cases hlook
  obtain ⟨hdir, hlisted⟩ := hpaths e he _ _ hpath
  exact ⟨resp, w', events, hexec, hlisted, ⟨e, he, text, hpath, hdir⟩, hpaths⟩

end Linhello.Daemon
