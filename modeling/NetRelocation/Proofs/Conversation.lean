import NetRelocation.Relocation.Move

/-!
# Conversations with the kernel

Work with the kernel adds to its trace and leaves the files as they are. `Converses files work post`
says that, over these files and whatever the kernel is going to answer, the result of the work and
what it adds to the trace are as `post` says. A request stands in the trace with its reply, so that
`post` can tell what came of each.

A conversation is put together from the conversations of its parts (`Converses.bind`,
`Converses.tryCatch`); each function that makes requests has one lemma about its own.
-/

namespace NetRelocation

/-! ## What came of a request -/

namespace Reply

/-- Whether a request to move a link was carried out: it was accepted, or interrupted (error 4),
which comes after it was carried out. -/
def carriedOut (reply : Option Reply) : Bool :=
  match changed reply with
  | .ok _ => true
  | .error e => e.errno == some 4

theorem carriedOut_of_error {reply : Option Reply} {e : NetlinkError}
    (h : changed reply = .error e) : carriedOut reply = e.isInterrupted := by
  rw [carriedOut, h]
  rfl

/-- Whether a look-up was interrupted. -/
def interrupts (reply : Option Reply) : Bool :=
  match link reply with
  | .ok _ => false
  | .error e => e.errno == some 4

theorem interrupts_of_error {reply : Option Reply} {e : NetlinkError} (h : link reply = .error e) :
    interrupts reply = e.isInterrupted := by
  rw [interrupts, h]
  rfl

/-- What the last reply to a look-up comes to when it gives no link: there is no device, also if the
kernel says so (error 19) or was interrupted. -/
def fruitless (name : String) (reply : Option Reply) : Error :=
  match link reply with
  | .ok _ => .notFound .device name
  | .error e =>
    if e.errno = some 19 ∨ e.errno = some 4 then .notFound .device name
    else Socket.rejected (.getLink name) e

theorem fruitless_of_error {name : String} {reply : Option Reply} {e : NetlinkError}
    (h : link reply = .error e) :
    fruitless name reply =
      if e.errno = some (Errno.noDevice : Int) ∨ e.isInterrupted then .notFound .device name
      else Socket.rejected (.getLink name) e := by
  simp only [fruitless, h, NetlinkError.isInterrupted, beq_iff_eq]
  rfl

theorem deviceMoved_fruitless (name : String) (reply : Option Reply) :
    (fruitless name reply).deviceMoved = false := by
  unfold fruitless
  split
  · rfl
  · split <;> rfl

end Reply

namespace Exchange

/-- Whether a link was moved to another namespace. -/
def moves : Exchange → Bool
  | .asked _ (.set _ _ attributes) reply =>
    attributes.any (· matches .netns _) && Reply.carriedOut reply
  | _ => false

/-- Whether a look-up gave a link. -/
def finds : Exchange → Bool
  | .asked _ (.get _) reply => (Reply.link reply matches .ok (some _))
  | _ => false

end Exchange

/-! ## Look-ups -/

/-- A look-up that was repeated: the replies to all attempts but the last, and the last. -/
structure LookUp where
  repeated : List (Option Reply)
  last : Option Reply

namespace LookUp

def exchanges (lookUp : LookUp) (place : Place) (name : String) : List Exchange :=
  (lookUp.repeated ++ [lookUp.last]).map (.asked place (.get name) ·)

/-- What holds of every attempt to look up a name holds of a look-up. -/
theorem forall_exchanges (lookUp : LookUp) {place : Place} {name : String} {p : Exchange → Prop}
    (h : ∀ reply, p (.asked place (.get name) reply)) :
    ∀ x ∈ lookUp.exchanges place name, p x := by
  intro x hx
  obtain ⟨reply, -, rfl⟩ := List.mem_map.1 hx
  exact h reply

/-- An attempt is only repeated when it was interrupted, and not more often than allowed. -/
structure Lawful (lookUp : LookUp) (attempts : Nat) : Prop where
  interrupted : ∀ reply ∈ lookUp.repeated, Reply.interrupts reply = true
  few : lookUp.repeated.length < attempts

/-- A look-up that ends without a link: it was not cut short while it could be repeated. -/
structure Fails (lookUp : LookUp) (attempts : Nat) : Prop extends Lawful lookUp attempts where
  nothing : ∀ link, Reply.link lookUp.last ≠ .ok (some link)
  exhausted : Reply.interrupts lookUp.last = true → lookUp.repeated.length + 1 = attempts

/-- An attempt that was repeated gave no link. -/
theorem Lawful.finds_repeated {lookUp : LookUp} {attempts : Nat} (h : lookUp.Lawful attempts)
    (reply : Option Reply) (hreply : reply ∈ lookUp.repeated) (place : Place) (name : String) :
    (Exchange.asked place (.get name) reply).finds = false := by
  have hinterrupted := h.interrupted reply hreply
  dsimp only [Reply.interrupts] at hinterrupted
  split at hinterrupted
  · cases hinterrupted
  · rename_i hlink
    simp [Exchange.finds, hlink]

theorem Fails.finds {lookUp : LookUp} {attempts : Nat} (h : lookUp.Fails attempts) (place : Place)
    (name : String) : ∀ x ∈ lookUp.exchanges place name, x.finds = false := by
  intro x hx
  obtain ⟨reply, hreply, rfl⟩ := List.mem_map.1 hx
  rcases List.mem_append.1 hreply with hrepeated | hlast
  · exact h.finds_repeated reply hrepeated place name
  · cases List.mem_singleton.1 hlast
    dsimp only [Exchange.finds]
    split
    · rename_i link hlink
      exact absurd hlink (h.nothing link)
    · rfl

end LookUp

namespace Kernel

variable {α β : Type} {files : FileTree}

/-- Whatever the kernel answers, the result of the work and what it asks are as `post` says. -/
def Converses (files : FileTree) (work : KernelM α)
    (post : Except Error α → List Exchange → Prop) : Prop :=
  ∀ k : Kernel, k.files = files → (k.perform work).2.files = files ∧
    ∃ t, (k.perform work).2.trace = k.trace ++ t ∧ post (k.perform work).1 t

/-! ## Putting conversations together -/

theorem perform_bind (k : Kernel) (work : KernelM α) (f : α → KernelM β) :
    k.perform (work >>= f) =
      match k.perform work with
      | (.ok a, k') => k'.perform (f a)
      | (.error e, k') => (.error e, k') := by
  unfold perform
  simp only [bind, ExceptT.bind, ExceptT.mk, StateT.bind, ExceptT.bindCont]
  obtain ⟨result, k'⟩ := work k
  cases result <;> rfl

theorem perform_tryCatch (k : Kernel) (work : KernelM α) (f : Error → KernelM α) :
    k.perform (tryCatch work f) =
      match k.perform work with
      | (.ok a, k') => (.ok a, k')
      | (.error e, k') => k'.perform (f e) := by
  unfold perform
  simp only [tryCatch, tryCatchThe, MonadExceptOf.tryCatch, ExceptT.tryCatch, ExceptT.mk, bind,
    StateT.bind]
  obtain ⟨result, k'⟩ := work k
  cases result <;> rfl

theorem perform_get (k : Kernel) : k.perform (get : KernelM Kernel) = (.ok k, k) := rfl

theorem perform_set (k k' : Kernel) : k.perform (set k' : KernelM PUnit) = (.ok ⟨⟩, k') := rfl

section

variable {work : KernelM α} {post : Except Error α → List Exchange → Prop}

theorem Converses.mono {post' : Except Error α → List Exchange → Prop}
    (h : Converses files work post) (hp : ∀ res t, post res t → post' res t) :
    Converses files work post' := by
  intro k hk
  obtain ⟨hf, t, ht, hpost⟩ := h k hk
  exact ⟨hf, t, ht, hp _ _ hpost⟩

/-- What is asked during the work comes after what was asked before. -/
theorem Converses.trace (h : Converses files work post) (k : Kernel) (hk : k.files = files) :
    ∃ t, (k.perform work).2.trace = k.trace ++ t ∧ post (k.perform work).1 t :=
  (h k hk).2

theorem converses_pure {a : α} (h : post (.ok a) []) : Converses files (pure a) post :=
  fun k hk => ⟨hk, [], (List.append_nil k.trace).symm, h⟩

theorem converses_throw {e : Error} (h : post (.error e) []) :
    Converses files (throw e : KernelM α) post :=
  fun k hk => ⟨hk, [], (List.append_nil k.trace).symm, h⟩

/-- After the first work the second goes on with its value, unless the first failed. -/
theorem Converses.bind {f : α → KernelM β} {post' : Except Error β → List Exchange → Prop}
    (h : Converses files work post)
    (hok : ∀ a t, post (.ok a) t → Converses files (f a) fun res u => post' res (t ++ u))
    (herr : ∀ e t, post (.error e) t → post' (.error e) t) :
    Converses files (work >>= f) post' := by
  intro k hk
  obtain ⟨hf, t, ht, hp⟩ := h k hk
  rw [perform_bind]
  generalize k.perform work = o at hf ht hp
  obtain ⟨result, k'⟩ := o
  cases result with
  | error e => exact ⟨hf, t, ht, herr e t hp⟩
  | ok a =>
    obtain ⟨hf', u, hu, hp'⟩ := hok a t hp k' hf
    refine ⟨hf', t ++ u, ?_, hp'⟩
    rw [hu, ← List.append_assoc]
    exact congrArg (· ++ u) ht

/-- A failure goes on with what is done about it. -/
theorem Converses.tryCatch {f : Error → KernelM α} {post' : Except Error α → List Exchange → Prop}
    (h : Converses files work post) (hok : ∀ a t, post (.ok a) t → post' (.ok a) t)
    (herr : ∀ e t, post (.error e) t → Converses files (f e) fun res u => post' res (t ++ u)) :
    Converses files (tryCatch work f) post' := by
  intro k hk
  obtain ⟨hf, t, ht, hp⟩ := h k hk
  rw [perform_tryCatch]
  generalize k.perform work = o at hf ht hp
  obtain ⟨result, k'⟩ := o
  cases result with
  | ok a => exact ⟨hf, t, ht, hok a t hp⟩
  | error e =>
    obtain ⟨hf', u, hu, hp'⟩ := herr e t hp k' hf
    refine ⟨hf', t ++ u, ?_, hp'⟩
    rw [hu, ← List.append_assoc]
    exact congrArg (· ++ u) ht

end

/-! ## Work that asks nothing -/

theorem converses_report (notice : Notice) :
    Converses files (report notice) fun res t => res = .ok () ∧ t = [] :=
  fun k hk => ⟨hk, [], (List.append_nil k.trace).symm, rfl, rfl⟩

theorem perform_openSocket (k : Kernel) (place : Place) :
    k.perform (openSocket place) =
      (if k.sockets.head?.getD 0 = 0 then .ok ⟨place⟩
        else .error (.io (.errno (k.sockets.head?.getD 0))),
        { k with sockets := k.sockets.tail }) := by
  rw [openSocket, perform_bind, perform_get]
  dsimp only
  rw [perform_bind, perform_set]
  dsimp only
  by_cases h : k.sockets.head?.getD 0 = 0
  · rw [if_pos h, h]
    rfl
  · rw [if_neg h]
    split
    · contradiction
    · rfl

theorem converses_openSocket (place : Place) :
    Converses files (openSocket place) fun res t =>
      t = [] ∧ (res = .ok ⟨place⟩ ∨ ∃ n, res = .error (.io (.errno n))) := by
  intro k hk
  rw [perform_openSocket]
  refine ⟨hk, [], (List.append_nil k.trace).symm, rfl, ?_⟩
  dsimp only
  split
  · exact .inl rfl
  · exact .inr ⟨_, rfl⟩

theorem perform_openNamespace (k : Kernel) (path : String) :
    k.perform (openNamespace path) =
      (match k.files.openFile path with
        | .ok found => .ok ⟨path, placeOf found⟩
        | .error cause => .error (openError path cause), k) := by
  rw [openNamespace, perform_bind, perform_get]
  dsimp only
  cases k.files.openFile path <;> rfl

theorem deviceMoved_openError (path : String) (cause : IoCause) :
    (openError path cause).deviceMoved = false := by
  unfold openError
  split <;> rfl

theorem converses_openNamespace (path : String) :
    Converses files (openNamespace path) fun res t =>
      t = [] ∧ res = match files.openFile path with
        | .ok found => .ok ⟨path, placeOf found⟩
        | .error cause => .error (openError path cause) := by
  rintro k rfl
  rw [perform_openNamespace]
  exact ⟨rfl, [], (List.append_nil k.trace).symm, rfl, rfl⟩

/-- Some work whose failure is reported converses as it does without. -/
theorem Converses.reportError {work : KernelM α} {post : Except Error α → List Exchange → Prop}
    (h : Converses files work post) (notice : Error → Notice) :
    Converses files (reportError work notice) post := by
  refine h.tryCatch (fun _ _ hp => hp) fun e t hp => ?_
  refine (converses_report _).bind (fun _ u hu => ?_) fun _ _ hu => by cases hu.1
  obtain ⟨-, rfl⟩ := hu
  exact converses_throw (by simpa using hp)

/-! ## Requests -/

/-- A request stands in the trace with the reply that the work goes on with. -/
theorem converses_ask (socket : Socket) (request : Request) {f : Option Reply → KernelM β}
    {post : Except Error β → List Exchange → Prop}
    (h : ∀ reply, Converses files (f reply) fun res t =>
      post res (.asked socket.place request reply :: t)) :
    Converses files (ask socket request >>= f) post := by
  have hask : Converses files (ask socket request) fun res t =>
      ∃ reply, res = .ok reply ∧ t = [.asked socket.place request reply] := by
    intro k hk
    cases request with
    | dump => exact ⟨hk, _, rfl, _, rfl, rfl⟩
    | _ => exact ⟨hk, _, rfl, _, rfl, rfl⟩
  refine hask.bind (fun reply t ht => ?_) fun e t ht => ?_
  · obtain ⟨_, hr, rfl⟩ := ht
    cases hr
    exact h reply
  · obtain ⟨_, hr, -⟩ := ht
    cases hr

theorem perform_enter (k : Kernel) (file : NamespaceFile) :
    k.perform (enter file) =
      Kernel.perform
        { k with
          entries := k.entries.tail
          trace := k.trace ++ [.entered file.place (k.entries.head?.getD 0)] }
        (if k.entries.head?.getD 0 ≠ 0 then do
            report (.notEntered file.path (k.entries.head?.getD 0))
            throw (.namespaceFailed (.notEntered file.path (k.entries.head?.getD 0)))
          else pure ()) := rfl

theorem converses_enter (file : NamespaceFile) :
    Converses files (enter file) fun res t =>
      ∃ errno, t = [.entered file.place errno] ∧
        res = if errno = 0 then .ok ()
          else .error (.namespaceFailed (.notEntered file.path errno)) := by
  intro k hk
  rw [perform_enter]
  generalize k.entries.head?.getD 0 = errno
  by_cases h0 : errno = 0
  · rw [if_neg (not_not_intro h0)]
    exact ⟨hk, _, rfl, errno, rfl, (if_pos h0).symm⟩
  · rw [if_pos h0]
    exact ⟨hk, _, rfl, errno, rfl, (if_neg h0).symm⟩

theorem converses_openSocketIn (file : NamespaceFile) :
    Converses files (openSocketIn file) fun res t =>
      (∃ errno, t = [.entered file.place errno]) ∧
        (res = .ok ⟨file.place⟩ ∨ ∃ e, res = .error e ∧ e.deviceMoved = false) := by
  refine (converses_enter file).bind (fun _ t ht => ?_) fun e t ht => ?_
  · obtain ⟨errno, rfl, -⟩ := ht
    refine (converses_openSocket file.place).mono fun res u hu => ?_
    obtain ⟨rfl, rfl | ⟨n, rfl⟩⟩ := hu
    · exact ⟨⟨errno, rfl⟩, .inl rfl⟩
    · exact ⟨⟨errno, rfl⟩, .inr ⟨_, rfl, rfl⟩⟩
  · obtain ⟨errno, rfl, he⟩ := ht
    refine ⟨⟨errno, rfl⟩, .inr ⟨e, rfl, ?_⟩⟩
    split at he <;> cases he
    rfl

end Kernel

namespace Socket

open Kernel

variable {β : Type} {files : FileTree} (socket : Socket)

/-- A change stands in the trace with the reply that tells whether it was accepted. -/
theorem converses_change (index : UInt32) (up : Option Bool) (attributes : List LinkAttribute)
    {f : Except NetlinkError Unit → KernelM β} {post : Except Error β → List Exchange → Prop}
    (h : ∀ reply, Converses files (f (Reply.changed reply)) fun res t =>
      post res (.asked socket.place (.set index up attributes) reply :: t)) :
    Converses files (socket.change index up attributes >>= f) post :=
  converses_ask socket _ h

/-- An address stands in the trace with the reply that tells whether it was accepted. -/
theorem converses_addAddress (index : UInt32) (address : Network)
    {f : Except NetlinkError Unit → KernelM β} {post : Except Error β → List Exchange → Prop}
    (h : ∀ reply, Converses files (f (Reply.changed reply)) fun res t =>
      post res (.asked socket.place (.addAddress index address) reply :: t)) :
    Converses files (socket.addAddress index address >>= f) post :=
  converses_ask socket _ h

/-- The flag of a link is changed by one request. -/
theorem converses_flag (index : UInt32) (up : Bool) (operation : Operation) :
    Converses files
      (do match ← socket.change index (some up) [] with
        | .ok _ => return ()
        | .error e => throw (rejected operation e))
      fun res t => ∃ reply, t = [.asked socket.place (.set index (some up) []) reply] ∧
        res = (Reply.changed reply).mapError (rejected operation) := by
  refine socket.converses_change index _ _ fun reply => ?_
  cases hc : Reply.changed reply with
  | ok _ => exact converses_pure ⟨reply, rfl, by rw [hc]; rfl⟩
  | error e => exact converses_throw ⟨reply, rfl, by rw [hc]; rfl⟩

theorem converses_setDown (index : UInt32) :
    Converses files (socket.setDown index) fun res t =>
      ∃ reply, t = [.asked socket.place (.set index (some false) []) reply] ∧
        res = (Reply.changed reply).mapError (rejected (.setDown index)) :=
  socket.converses_flag index false _

theorem converses_setUp (index : UInt32) :
    Converses files (socket.setUp index) fun res t =>
      ∃ reply, t = [.asked socket.place (.set index (some true) []) reply] ∧
        res = (Reply.changed reply).mapError (rejected (.setUp index)) :=
  socket.converses_flag index true _

/-- What a look-up comes to, given its replies. -/
def Searched (name : String) (attempts : Nat) (lookUp : LookUp) : Except Error Link → Prop
  | .ok link => lookUp.Lawful attempts ∧ Reply.link lookUp.last = .ok (some link)
  | .error e => lookUp.Fails attempts ∧ e = Reply.fruitless name lookUp.last

/-- A single attempt that gave no link. -/
theorem searched_once {name : String} {n : Nat} {reply : Option Reply} {e : Error}
    (hlink : ∀ link, Reply.link reply ≠ .ok (some link))
    (hlast : Reply.interrupts reply = true → n = 0) (he : e = Reply.fruitless name reply) :
    Searched name (n + 1) ⟨[], reply⟩ (.error e) :=
  ⟨⟨⟨nofun, n.succ_pos⟩, hlink, fun h => by rw [hlast h]; rfl⟩, he⟩

/-- One more attempt before. -/
theorem Searched.again {name : String} {n : Nat} {reply : Option Reply} {lookUp : LookUp}
    {res : Except Error Link} (h : Searched name n lookUp res)
    (hreply : Reply.interrupts reply = true) :
    Searched name (n + 1) ⟨reply :: lookUp.repeated, lookUp.last⟩ res := by
  have hlawful (h : lookUp.Lawful n) :
      LookUp.Lawful ⟨reply :: lookUp.repeated, lookUp.last⟩ (n + 1) :=
    ⟨List.forall_mem_cons.2 ⟨hreply, h.interrupted⟩, Nat.succ_lt_succ h.few⟩
  cases res with
  | ok link => exact ⟨hlawful h.1, h.2⟩
  | error e =>
    refine ⟨⟨hlawful h.1.toLawful, h.1.nothing, fun hlast => ?_⟩, h.2⟩
    exact congrArg Nat.succ (h.1.exhausted hlast)

/-- What a look-up asks, and what comes of its last attempt. -/
theorem converses_search (name : String) (n : Nat) :
    Converses files (socket.lookUp name n) fun res t =>
      (∃ lookUp : LookUp, t = lookUp.exchanges socket.place name ∧ Searched name n lookUp res) ∨
        (n = 0 ∧ t = [] ∧ res = .error (.notFound .device name)) := by
  induction n with
  | zero => exact converses_throw (.inr ⟨rfl, rfl, rfl⟩)
  | succ n ih =>
    refine converses_ask socket _ fun reply => ?_
    cases hr : Reply.link reply with
    | ok found =>
      cases found with
      | some link =>
        exact converses_pure (.inl ⟨⟨[], reply⟩, rfl, ⟨nofun, n.succ_pos⟩, hr⟩)
      | none =>
        refine converses_throw (.inl ⟨⟨[], reply⟩, rfl, searched_once ?_ ?_ ?_⟩)
        · simp [hr]
        · simp [Reply.interrupts, hr]
        · simp [Reply.fruitless, hr]
    | error e =>
      dsimp only
      split
      · rename_i hdevice
        refine converses_throw (.inl ⟨⟨[], reply⟩, rfl, searched_once ?_ ?_ ?_⟩)
        · simp [hr]
        · simp [Reply.interrupts_of_error hr, NetlinkError.isInterrupted, hdevice, Errno.noDevice,
            Errno.interrupted]
        · simp [Reply.fruitless_of_error hr, hdevice]
      · split
        · rename_i hdevice hinterrupted
          have hreply : Reply.interrupts reply = true :=
            (Reply.interrupts_of_error hr).trans hinterrupted
          refine ih.mono fun res t hres => .inl ?_
          rcases hres with ⟨lookUp, rfl, hsearched⟩ | ⟨rfl, rfl, rfl⟩
          · exact ⟨⟨reply :: lookUp.repeated, lookUp.last⟩, rfl, hsearched.again hreply⟩
          · refine ⟨⟨[], reply⟩, rfl, searched_once ?_ ?_ ?_⟩
            · simp [hr]
            · exact fun _ => rfl
            · simp [Reply.fruitless_of_error hr, hinterrupted]
        · rename_i hdevice hinterrupted
          refine converses_throw (.inl ⟨⟨[], reply⟩, rfl, searched_once ?_ ?_ ?_⟩)
          · simp [hr]
          · exact fun h => absurd ((Reply.interrupts_of_error hr).symm.trans h) hinterrupted
          · simp [Reply.fruitless_of_error hr, hdevice, hinterrupted]

/-- A look-up asks for the link alone, at least once and a few times at most; it is over as soon as
a link is found. -/
theorem converses_lookUp (name : String) (n : Nat) :
    Converses files (socket.lookUp name n) fun res t =>
      (∀ x ∈ t, ∃ reply, x = .asked socket.place (.get name) reply) ∧
        match res with
        | .ok link => ∃ init reply, t = init ++ [.asked socket.place (.get name) reply] ∧
            Reply.link reply = .ok (some link)
        | .error e => e.deviceMoved = false ∧ ∀ x ∈ t, x.finds = false := by
  refine (socket.converses_search name n).mono fun res t hres => ?_
  rcases hres with ⟨lookUp, rfl, hsearched⟩ | ⟨-, rfl, rfl⟩
  · refine ⟨fun x hx => ?_, ?_⟩
    · obtain ⟨reply, -, rfl⟩ := List.mem_map.1 hx
      exact ⟨reply, rfl⟩
    · cases res with
      | ok link => exact ⟨_, lookUp.last, List.map_append, hsearched.2⟩
      | error e =>
        obtain ⟨hfails, rfl⟩ := hsearched
        exact ⟨Reply.deviceMoved_fruitless name _, hfails.finds _ _⟩
  · exact ⟨nofun, rfl, nofun⟩

end Socket

namespace Move

open Kernel

/-- The request that moves a device fails exactly if it was not carried out. -/
theorem converses_execute {files : FileTree} (socket : Socket) (index : UInt32)
    (attributes : List LinkAttribute) (device : DeviceName) (ns : NamespaceRef) :
    Converses files (execute socket index attributes device ns) fun res t =>
      ∃ reply, t = [.asked socket.place (.set index none attributes) reply] ∧
        match res with
        | .ok _ => Reply.carriedOut reply = true
        | .error e => Reply.carriedOut reply = false ∧
            ∃ cause, Reply.changed reply = .error cause ∧
              e = Socket.rejected (.move device.text ns) cause := by
  refine socket.converses_change index _ _ fun reply => ?_
  cases hc : Reply.changed reply with
  | ok _ => exact converses_pure ⟨reply, rfl, by simp [Reply.carriedOut, hc]⟩
  | error e =>
    dsimp only
    cases he : e.isInterrupted with
    | true => exact converses_pure ⟨reply, rfl, (Reply.carriedOut_of_error hc).trans he⟩
    | false =>
      refine (converses_report _).bind (fun _ u hu => ?_) fun _ _ hu => by cases hu.1
      obtain ⟨-, rfl⟩ := hu
      exact converses_throw ⟨reply, rfl, (Reply.carriedOut_of_error hc).trans he, e, hc, rfl⟩

end Move

end NetRelocation
