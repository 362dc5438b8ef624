import NetRelocation.Proofs.Conversation

/-!
# Protocols

A *plan* says what is asked of the kernel, one step after another, and what a refusal of each step
comes to. A *course* of a plan is a conversation that keeps to it: the steps are made in their order,
and the first that is refused is the last that is made and gives the error. Whether a step is refused
stands in the conversation, or in what the kernel has in store (its files and its sockets).

Work *follows* a plan if, whatever the kernel answers, what it asks and what it results in are a
course of the plan (`Follows`). There is one lemma for each kind of step, so that a proof that work
follows a plan goes through the work line by line.
-/

namespace NetRelocation

open Kernel

variable {α β : Type}

/-! ## Replies -/

namespace Reply

/-- Whether a change was accepted. -/
def accepted (reply : Option Reply) : Bool :=
  match changed reply with
  | .ok _ => true
  | .error _ => false

end Reply

/-! ## Plans and their courses -/

/-- What is asked of the kernel, step by step. -/
inductive Plan (α : Type) where
  | finish (a : α)
  /-- Open a socket, the one with this number. -/
  | openSocket (number : Nat) (next : Plan α)
  | openFile (path : String) (next : Place → Plan α)
  | enter (file : NamespaceFile) (next : Plan α)
  | find (place : Place) (name : String) (next : Link → Plan α)
  /-- Make a request once. -/
  | ask (place : Place) (request : Request) (grants : Option Reply → Bool)
      (blame : NetlinkError → Error) (next : Plan α)
  /-- What fails from here on is blamed otherwise. -/
  | blaming (wrap : Error → Error) (next : Plan α)

namespace Plan

/-- A conversation that goes through a plan up to the first step that is refused. -/
inductive Course (script : Kernel) : Plan α → List Exchange → Except Error α → Prop
  | finish (a : α) : Course script (.finish a) [] (.ok a)
  | socket {number next t res} (h : script.sockets[number]?.getD 0 = 0)
      (hnext : Course script next t res) : Course script (.openSocket number next) t res
  | noSocket {number next errno} (h : script.sockets[number]?.getD 0 = errno) (hne : errno ≠ 0) :
      Course script (.openSocket number next) [] (.error (.io (.errno errno)))
  | file {path next found t res} (h : script.files.openFile path = .ok found)
      (hnext : Course script (next (placeOf found)) t res) :
      Course script (.openFile path next) t res
  | noFile {path next cause} (h : script.files.openFile path = .error cause) :
      Course script (.openFile path next) [] (.error (openError path cause))
  | entered {file next t res} (hnext : Course script next t res) :
      Course script (.enter file next) (.entered file.place 0 :: t) res
  | barred {file next errno} (hne : errno ≠ 0) :
      Course script (.enter file next) [.entered file.place errno]
        (.error (.namespaceFailed (.notEntered file.path errno)))
  | found {place name next t res} {lookUp : LookUp} {link : Link}
      (h : lookUp.Lawful 3) (hlink : Reply.link lookUp.last = .ok (some link))
      (hnext : Course script (next link) t res) :
      Course script (.find place name next) (lookUp.exchanges place name ++ t) res
  | notFound {place name next} {lookUp : LookUp} (h : lookUp.Fails 3) :
      Course script (.find place name next) (lookUp.exchanges place name)
        (.error (Reply.fruitless name lookUp.last))
  | granted {place request grants blame next reply t res} (h : grants reply = true)
      (hnext : Course script next t res) :
      Course script (.ask place request grants blame next) (.asked place request reply :: t) res
  | refused {place request grants blame next reply e} (h : grants reply = false)
      (he : Reply.changed reply = .error e) :
      Course script (.ask place request grants blame next) [.asked place request reply]
        (.error (blame e))
  | blaming {wrap next t res} (hnext : Course script next t res) :
      Course script (.blaming wrap next) t (res.mapError wrap)

/-! ## What all courses of a plan have in common -/

/-- Every course of a plan is as `post` says. -/
def Ensures (script : Kernel) (plan : Plan α) (post : Except Error α → List Exchange → Prop) :
    Prop :=
  ∀ t res, plan.Course script t res → post res t

/-- What is said of courses does not depend on some exchanges, and holds of courses of these alone
whose error says that the device did not move. -/
structure Passes (quiet : Exchange → Prop) (post : Except Error α → List Exchange → Prop) :
    Prop where
  error : ∀ e t, e.deviceMoved = false → (∀ x ∈ t, quiet x) → post (.error e) t
  step : ∀ res t u, (∀ x ∈ t, quiet x) → post res u → post res (t ++ u)

variable {script : Kernel} {quiet : Exchange → Prop} {post : Except Error α → List Exchange → Prop}

namespace Passes

variable (h : Passes quiet post)
include h

theorem openSocket {number : Nat} {next : Plan α} (hnext : Ensures script next post) :
    Ensures script (.openSocket number next) post := by
  intro t res hc
  cases hc with
  | socket _ hc => exact hnext t res hc
  | noSocket _ _ => exact h.error _ _ rfl nofun

theorem openFile {path : String} {next : Place → Plan α}
    (hnext : ∀ place, Ensures script (next place) post) :
    Ensures script (.openFile path next) post := by
  intro t res hc
  cases hc with
  | file _ hc => exact hnext _ t res hc
  | noFile _ => exact h.error _ _ (deviceMoved_openError path _) nofun

theorem enter {file : NamespaceFile} {next : Plan α}
    (hquiet : ∀ errno, quiet (.entered file.place errno)) (hnext : Ensures script next post) :
    Ensures script (.enter file next) post := by
  intro t res hc
  cases hc with
  | entered hc => exact h.step _ [_] _ (by simpa using hquiet 0) (hnext _ _ hc)
  | barred _ => exact h.error _ _ rfl (by simpa using hquiet _)

theorem find {place : Place} {name : String} {next : Link → Plan α}
    (hquiet : ∀ reply, quiet (.asked place (.get name) reply))
    (hnext : ∀ link, Ensures script (next link) post) :
    Ensures script (.find place name next) post := by
  intro t res hc
  cases hc with
  | found _ _ hc => exact h.step _ _ _ (LookUp.forall_exchanges _ hquiet) (hnext _ _ _ hc)
  | notFound _ =>
    exact h.error _ _ (Reply.deviceMoved_fruitless name _) (LookUp.forall_exchanges _ hquiet)

theorem ask {place : Place} {request : Request} {grants : Option Reply → Bool}
    {blame : NetlinkError → Error} {next : Plan α}
    (hquiet : ∀ reply, quiet (.asked place request reply))
    (hblame : ∀ e, (blame e).deviceMoved = false) (hnext : Ensures script next post) :
    Ensures script (.ask place request grants blame next) post := by
  intro t res hc
  cases hc with
  | granted _ hc => exact h.step _ [_] _ (by simpa using hquiet _) (hnext _ _ hc)
  | refused _ _ => exact h.error _ _ (hblame _) (by simpa using hquiet _)

end Passes

/-! ## What the exchanges of a course have in common -/

/-- Every exchange that a plan can lead to is as `p` says. -/
def Respects (p : Exchange → Prop) : Plan α → Prop
  | finish _ => True
  | openSocket _ next => next.Respects p
  | openFile _ next => ∀ place, (next place).Respects p
  | enter file next => (∀ errno, p (.entered file.place errno)) ∧ next.Respects p
  | find place name next =>
    (∀ reply, p (.asked place (.get name) reply)) ∧ ∀ link, (next link).Respects p
  | ask place request _ _ next => (∀ reply, p (.asked place request reply)) ∧ next.Respects p
  | blaming _ next => next.Respects p

/-- **A course has only exchanges of its plan.** -/
theorem Course.forall_mem {p : Exchange → Prop} {plan : Plan α} {t : List Exchange}
    {res : Except Error α} (hc : plan.Course script t res) (h : plan.Respects p) :
    ∀ x ∈ t, p x := by
  induction hc with
  | finish _ => nofun
  | socket _ _ ih => exact ih h
  | noSocket _ _ => nofun
  | file _ _ ih => exact ih (h _)
  | noFile _ => nofun
  | entered _ ih => exact List.forall_mem_cons.2 ⟨h.1 0, ih h.2⟩
  | barred _ => exact List.forall_mem_singleton.2 (h.1 _)
  | found _ _ _ ih => exact List.forall_mem_append.2 ⟨LookUp.forall_exchanges _ h.1, ih (h.2 _)⟩
  | notFound _ => exact LookUp.forall_exchanges _ h.1
  | granted _ _ ih => exact List.forall_mem_cons.2 ⟨h.1 _, ih h.2⟩
  | refused _ _ => exact List.forall_mem_singleton.2 (h.1 _)
  | blaming _ ih => exact ih h

end Plan

namespace Kernel

variable {work : KernelM α} {f : α → KernelM β}

/-! ## Sockets -/

/-- Work that opens no socket. -/
def KeepsSockets (work : KernelM α) : Prop :=
  ∀ k : Kernel, (k.perform work).2.sockets = k.sockets

theorem KeepsSockets.bind (h : KeepsSockets work) (hf : ∀ a, KeepsSockets (f a)) :
    KeepsSockets (work >>= f) := by
  intro k
  have hk := h k
  rw [perform_bind]
  generalize k.perform work = o at hk
  obtain ⟨result, k'⟩ := o
  cases result with
  | error e => exact hk
  | ok a => exact (hf a k').trans hk

theorem KeepsSockets.reportError (h : KeepsSockets work) (notice : Error → Notice) :
    KeepsSockets (reportError work notice) := by
  intro k
  have hk := h k
  rw [Kernel.reportError, perform_tryCatch]
  generalize k.perform work = o at hk
  obtain ⟨result, k'⟩ := o
  cases result <;> exact hk

theorem keepsSockets_pure (a : α) : KeepsSockets (pure a) := fun _ => rfl

theorem keepsSockets_throw (e : Error) : KeepsSockets (throw e : KernelM α) := fun _ => rfl

theorem keepsSockets_report (notice : Notice) : KeepsSockets (report notice) := fun _ => rfl

theorem keepsSockets_openNamespace (path : String) : KeepsSockets (openNamespace path) := by
  intro k
  rw [perform_openNamespace]

theorem keepsSockets_enter (file : NamespaceFile) : KeepsSockets (enter file) := by
  intro k
  rw [perform_enter]
  split <;> rfl

theorem keepsSockets_ask (socket : Socket) (request : Request) :
    KeepsSockets (ask socket request) := by
  intro k
  cases request <;> rfl

end Kernel

namespace Socket

variable (socket : Socket)

theorem keepsSockets_change (index : UInt32) (up : Option Bool) (attributes : List LinkAttribute) :
    KeepsSockets (socket.change index up attributes) :=
  (keepsSockets_ask socket _).bind fun _ => keepsSockets_pure _

theorem keepsSockets_lookUp (name : String) (n : Nat) : KeepsSockets (socket.lookUp name n) := by
  induction n with
  | zero => exact keepsSockets_throw _
  | succ n ih =>
    refine (keepsSockets_ask socket _).bind fun reply => ?_
    split
    · exact keepsSockets_pure _
    · exact keepsSockets_throw _
    · split
      · exact keepsSockets_throw _
      · split
        · exact ih
        · exact keepsSockets_throw _

end Socket

namespace Kernel

variable {script : Kernel} {n : Nat} {work : KernelM α} {f : α → KernelM β}

/-! ## Work that follows a plan -/

/-- Whatever the kernel answers, over the files of the script and the sockets that it has left after
so many were opened, the result of the work and what it asks are as `post` says. -/
def Runs (script : Kernel) (n : Nat) (work : KernelM α)
    (post : Except Error α → List Exchange → Prop) : Prop :=
  ∀ k : Kernel, k.files = script.files → k.sockets = script.sockets.drop n →
    ∃ t, (k.perform work).2.trace = k.trace ++ t ∧ post (k.perform work).1 t

/-- What work asks and results in is a course of a plan. -/
def Follows (script : Kernel) (n : Nat) (work : KernelM α) (plan : Plan α) : Prop :=
  Runs script n work fun res t => plan.Course script t res

theorem runs_throw {e : Error} {post : Except Error α → List Exchange → Prop}
    (h : post (.error e) []) : Runs script n (throw e : KernelM α) post :=
  fun k _ _ => ⟨[], (List.append_nil k.trace).symm, h⟩

theorem Runs.mono {post post' : Except Error α → List Exchange → Prop} (h : Runs script n work post)
    (hp : ∀ res t, post res t → post' res t) : Runs script n work post' := by
  intro k hfiles hsockets
  obtain ⟨t, ht, hpost⟩ := h k hfiles hsockets
  exact ⟨t, ht, hp _ _ hpost⟩

/-- Work that opens no socket leaves the sockets to what comes after it. -/
theorem Runs.after {post : Except Error α → List Exchange → Prop}
    {post' : Except Error β → List Exchange → Prop} (h : Converses script.files work post)
    (hs : KeepsSockets work)
    (hok : ∀ a t, post (.ok a) t → Runs script n (f a) fun res u => post' res (t ++ u))
    (herr : ∀ e t, post (.error e) t → post' (.error e) t) :
    Runs script n (work >>= f) post' := by
  intro k hfiles hsockets
  obtain ⟨hfiles', t, ht, hpost⟩ := h k hfiles
  have hsockets' := (hs k).trans hsockets
  rw [perform_bind]
  generalize k.perform work = o at hfiles' hsockets' ht hpost
  obtain ⟨result, k'⟩ := o
  cases result with
  | error e => exact ⟨t, ht, herr e t hpost⟩
  | ok a =>
    obtain ⟨u, hu, hpost'⟩ := hok a t hpost k' hfiles' hsockets'
    refine ⟨t ++ u, ?_, hpost'⟩
    rw [hu, ← List.append_assoc]
    exact congrArg (· ++ u) ht

theorem follows_pure (a : α) : Follows script n (pure a) (.finish a) :=
  fun k _ _ => ⟨[], (List.append_nil k.trace).symm, .finish a⟩

theorem follows_openSocket {place : Place} {f : Socket → KernelM β} {next : Plan β}
    (h : Follows script (n + 1) (f ⟨place⟩) next) :
    Follows script n (openSocket place >>= f) (.openSocket n next) := by
  intro k hfiles hsockets
  have hhead : k.sockets.head?.getD 0 = script.sockets[n]?.getD 0 := by
    rw [hsockets, List.head?_drop]
  have htail : k.sockets.tail = script.sockets.drop (n + 1) := by
    rw [hsockets, List.tail_drop]
  rw [perform_bind, perform_openSocket]
  by_cases hzero : k.sockets.head?.getD 0 = 0
  · rw [if_pos hzero]
    obtain ⟨t, ht, hc⟩ := h { k with sockets := k.sockets.tail } hfiles htail
    exact ⟨t, ht, .socket (hhead.symm.trans hzero) hc⟩
  · rw [if_neg hzero]
    exact ⟨[], (List.append_nil k.trace).symm, .noSocket hhead.symm hzero⟩

theorem follows_openNamespace {path : String} {f : NamespaceFile → KernelM β}
    {next : Place → Plan β} (h : ∀ place, Follows script n (f ⟨path, place⟩) (next place)) :
    Follows script n (openNamespace path >>= f) (.openFile path next) := by
  refine Runs.after (converses_openNamespace path) (keepsSockets_openNamespace path) ?_ ?_
  · rintro file t ⟨rfl, hfile⟩
    split at hfile
    · rename_i found ho
      cases hfile
      exact (h _).mono fun _ _ hc => .file ho hc
    · cases hfile
  · rintro e t ⟨rfl, hfile⟩
    split at hfile
    · cases hfile
    · rename_i cause ho
      cases hfile
      exact .noFile ho

theorem follows_openSocketIn {file : NamespaceFile} {f : Socket → KernelM β} {next : Plan β}
    (h : Follows script (n + 1) (f ⟨file.place⟩) next) :
    Follows script n (openSocketIn file >>= f) (.enter file (.openSocket n next)) := by
  rw [openSocketIn, bind_assoc]
  refine Runs.after (converses_enter file) (keepsSockets_enter file) ?_ ?_
  · rintro ⟨⟩ t ⟨errno, rfl, hres⟩
    split at hres
    · rename_i hzero
      subst hzero
      exact (follows_openSocket h).mono fun _ _ hc => .entered hc
    · cases hres
  · rintro e t ⟨errno, rfl, hres⟩
    split at hres
    · cases hres
    · rename_i hne
      cases hres
      exact .barred hne

end Kernel

namespace Socket

variable {script : Kernel} {n : Nat} {socket : Socket}

/-! ## Look-ups -/

theorem follows_search {work : KernelM Link} {place : Place} {name : String}
    (hsearch : Converses script.files work fun res t =>
      (∃ lookUp : LookUp, t = lookUp.exchanges place name ∧ Searched name attempts lookUp res) ∨
        (attempts = 0 ∧ t = [] ∧ res = .error (.notFound .device name)))
    (hs : KeepsSockets work) {f : Link → KernelM β} {next : Link → Plan β}
    (h : ∀ link, Follows script n (f link) (next link)) :
    Follows script n (work >>= f) (.find place name next) := by
  refine Runs.after hsearch hs ?_ ?_
  · rintro link t (⟨lookUp, rfl, hlawful, hlink⟩ | ⟨hzero, -⟩)
    · exact (h link).mono fun _ _ hc => .found hlawful hlink hc
    · cases hzero
  · rintro e t (⟨lookUp, rfl, hfails, rfl⟩ | ⟨hzero, -⟩)
    · exact .notFound hfails
    · cases hzero

theorem follows_linkByName {name : String} {f : Link → KernelM β} {next : Link → Plan β}
    (h : ∀ link, Follows script n (f link) (next link)) :
    Follows script n (socket.linkByName name >>= f) (.find socket.place name next) :=
  follows_search (socket.converses_search name attempts)
    (socket.keepsSockets_lookUp name attempts) h

theorem follows_reportError_linkByName {name : String} {notice : Error → Notice}
    {f : Link → KernelM β} {next : Link → Plan β}
    (h : ∀ link, Follows script n (f link) (next link)) :
    Follows script n (reportError (socket.linkByName name) notice >>= f)
      (.find socket.place name next) :=
  follows_search ((socket.converses_search name attempts).reportError notice)
    ((socket.keepsSockets_lookUp name attempts).reportError notice) h

/-! ## Requests that are made once -/

/-- Work that makes one request, and fails when that is not granted. -/
structure Makes (work : KernelM Unit) (place : Place) (request : Request)
    (grants : Option Reply → Bool) (blame : NetlinkError → Error) : Prop where
  sockets : KeepsSockets work
  converses : ∀ files, Converses files work fun res t =>
    ∃ reply, t = [.asked place request reply] ∧
      match res with
      | .ok _ => grants reply = true
      | .error e => grants reply = false ∧
          ∃ cause, Reply.changed reply = .error cause ∧ e = blame cause

theorem Makes.follows {work : KernelM Unit} {place : Place} {request : Request}
    {grants : Option Reply → Bool} {blame : NetlinkError → Error} {f : Unit → KernelM β}
    {next : Plan β} (hwork : Makes work place request grants blame)
    (h : Follows script n (f ()) next) :
    Follows script n (work >>= f) (.ask place request grants blame next) := by
  refine Runs.after (hwork.converses script.files) hwork.sockets ?_ ?_
  · rintro ⟨⟩ t ⟨reply, rfl, hgranted⟩
    exact h.mono fun _ _ hc => .granted hgranted hc
  · rintro e t ⟨reply, rfl, hrefused, cause, hcause, rfl⟩
    exact .refused hrefused hcause

theorem makes_flag (index : UInt32) (up : Bool) (operation : Operation) :
    Makes
      (do match ← socket.change index (some up) [] with
        | .ok _ => return ()
        | .error e => throw (rejected operation e))
      socket.place (.set index (some up) []) Reply.accepted (rejected operation) where
  sockets := by
    refine (socket.keepsSockets_change index _ _).bind fun answer => ?_
    cases answer with
    | ok _ => exact keepsSockets_pure ()
    | error e => exact keepsSockets_throw _
  converses files := by
    refine (socket.converses_flag index up operation).mono fun res t ⟨reply, ht, hres⟩ => ?_
    refine ⟨reply, ht, ?_⟩
    subst hres
    cases hc : Reply.changed reply with
    | ok _ =>
      show Reply.accepted reply = true
      simp [Reply.accepted, hc]
    | error e => exact ⟨by simp [Reply.accepted, hc], e, rfl, rfl⟩

theorem makes_setDown (index : UInt32) :
    Makes (socket.setDown index) socket.place (.set index (some false) []) Reply.accepted
      (rejected (.setDown index)) :=
  makes_flag index false _

theorem makes_setUp (index : UInt32) :
    Makes (socket.setUp index) socket.place (.set index (some true) []) Reply.accepted
      (rejected (.setUp index)) :=
  makes_flag index true _

/-- What comes after an address was asked for goes on with whether it was accepted. -/
theorem runs_addAddress {index : UInt32} {address : Network}
    {f : Except NetlinkError Unit → KernelM β} {post : Except Error β → List Exchange → Prop}
    (h : ∀ reply, Runs script n (f (Reply.changed reply)) fun res t =>
      post res (.asked socket.place (.addAddress index address) reply :: t)) :
    Runs script n (socket.addAddress index address >>= f) post := by
  have hasked : Converses script.files (socket.addAddress index address) fun res t =>
      ∃ reply, res = .ok (Reply.changed reply) ∧
        t = [.asked socket.place (.addAddress index address) reply] :=
    converses_ask socket _ fun reply => converses_pure ⟨reply, rfl, rfl⟩
  refine Runs.after hasked ((keepsSockets_ask socket _).bind fun _ => keepsSockets_pure _) ?_ ?_
  · rintro _ t ⟨reply, ⟨⟩, rfl⟩
    exact h reply
  · rintro e t ⟨reply, he, -⟩
    cases he

end Socket

namespace Move

variable {script : Kernel} {n : Nat} {socket : Socket}

/-- The request that moves a device is granted even if it was interrupted. -/
theorem makes_execute {attributes asked : List LinkAttribute} (h : attributes = asked)
    (index : UInt32) (device : DeviceName) (ns : NamespaceRef) :
    Socket.Makes (execute socket index attributes device ns) socket.place
      (.set index none asked) Reply.carriedOut (Socket.rejected (.move device.text ns)) where
  sockets := by
    refine (socket.keepsSockets_change index _ _).bind fun answer => ?_
    cases answer with
    | ok _ => exact keepsSockets_pure ()
    | error e =>
      dsimp only
      split
      · exact keepsSockets_pure ()
      · exact (keepsSockets_report _).bind fun _ => keepsSockets_throw _
  converses _ := h ▸ converses_execute socket index attributes device ns

/-- What fails while a device is brought up is blamed on that. -/
theorem follows_enable {device place : String} {work : KernelM Unit} {notice : Notice} {a : α}
    {plan : Plan α} (h : Follows script n (work >>= fun _ => pure a) plan) :
    Follows script n
      (enable device place work >>= fun _ => report notice >>= fun _ => pure a)
      (.blaming (fun e => .enableFailed device place e.message) plan) := by
  intro k hfiles hsockets
  obtain ⟨t, ht, hc⟩ := h k hfiles hsockets
  rw [perform_bind] at ht hc
  rw [perform_bind, enable, perform_tryCatch]
  generalize k.perform work = o at ht hc
  obtain ⟨result, k'⟩ := o
  cases result with
  | ok u => exact ⟨t, ht, .blaming hc⟩
  | error e => exact ⟨t, ht, .blaming hc⟩

end Move

end NetRelocation
