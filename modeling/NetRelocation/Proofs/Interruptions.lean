import Mathlib
import NetRelocation.Proofs.Conversation

/-!
# Interrupted replies

The kernel can be interrupted while it answers. A look-up or a listing is then repeated, a few times
at most, and a move has been carried out all the same. So nobody who attaches, detaches or lists
devices can tell.

**Theorem (`interruptions_pass_unseen`).** Take work that no interruption disturbs, and script the
kernel anew: each look-up may first be interrupted once or twice, and a move that succeeded may be
interrupted instead. Then an attach and a detach have the same result, leave the same kernel, and
ask the same, except that a look-up stands once more for each of its interruptions. When a look-up
is interrupted a third time, its device counts as not found and nothing more is asked. A listing
with up to two interrupted dumps has the devices of the dump that follows, in its order.

The two runs are compared through what was asked. The trace of the first run tells which replies it
took and for what; `Disturbed` says what the second run is to ask instead, and `Answers` that the
new script has the replies for that, in this order and over all sockets. That the second run indeed
asks this is shown for each request (`absorbs_ask`, `absorbs_linkByName`), and goes through
composition (`Absorbs.bind`): a reply more or less in one part would shift those of the next.
-/

namespace NetRelocation

/-- Whether what came of a request is that the kernel was interrupted (error 4). -/
def NetlinkError.interrupts {α : Type} : Except NetlinkError α → Bool
  | .ok _ => false
  | .error e => e.errno == some 4

@[simp] theorem NetlinkError.interrupts_error {α : Type} (e : NetlinkError) :
    interrupts (.error e : Except NetlinkError α) = e.isInterrupted := rfl

open NetlinkError (interrupts interrupts_error)

/-- The reply of a kernel that was interrupted. -/
def Reply.interruption : Reply := .refused 4

@[simp] theorem Reply.link_interruption :
    Reply.link (some .interruption) = .error (.reply (-4)) := rfl

@[simp] theorem Reply.changed_interruption :
    Reply.changed (some .interruption) = .error (.reply (-4)) := rfl

/-! ## What is asked of an interrupted kernel -/

namespace Exchange

/-- Whether this is a look-up, a listing or a move that the kernel interrupted. -/
def interrupted : Exchange → Bool
  | .asked _ (.get _) reply => interrupts (Reply.link reply)
  | .asked _ .dump reply => interrupts (Reply.dumped reply)
  | .asked _ (.set _ none _) reply => interrupts (Reply.changed reply)
  | _ => false

/-- A look-up that the kernel interrupts. -/
def missed (place : Place) (name : String) : Exchange :=
  .asked place (.get name) (some .interruption)

/-- What can stand for an exchange when the kernel is interrupted now and then: a look-up comes
after some that were interrupted, but not so many that it would not be made any more, and a move
that succeeded is interrupted. -/
inductive Becomes : Exchange → List Exchange → Prop
  | itself (x : Exchange) : Becomes x [x]
  | repeated (place : Place) (name : String) (reply : Option Reply) (n : Nat)
    (few : n < 3) :
    Becomes (.asked place (.get name) reply)
      (List.replicate n (missed place name) ++ [.asked place (.get name) reply])
  | cutShort (place : Place) (index : UInt32) (attributes : List LinkAttribute)
    (reply : Option Reply) (success : Reply.changed reply = .ok ()) :
    Becomes (.asked place (.set index none attributes) reply)
      [.asked place (.set index none attributes) (some .interruption)]

end Exchange

open Exchange (missed)

/-- No look-up, listing or move was interrupted. -/
def Undisturbed (t : List Exchange) : Prop := ∀ x ∈ t, x.interrupted = false

/-- The second conversation is the first with interruptions. -/
inductive Disturbed : List Exchange → List Exchange → Prop
  | nil : Disturbed [] []
  | cons {x : Exchange} {xs t t' : List Exchange} (first : x.Becomes xs) (rest : Disturbed t t') :
    Disturbed (x :: t) (xs ++ t')

/-- Replies to look-ups and changes that answer a conversation, and those that are left then. A
reply that is lacking is the end of the script. -/
def Answers : List Reply → List Exchange → List Reply → Prop
  | replies, [], left => left = replies
  | replies, .entered _ _ :: t, left => Answers replies t left
  | replies, .asked _ .dump _ :: t, left => Answers replies t left
  | replies, .asked _ _ reply :: t, left => reply = replies.head? ∧ Answers replies.tail t left

theorem undisturbed_append {t u : List Exchange} :
    Undisturbed (t ++ u) ↔ Undisturbed t ∧ Undisturbed u := List.forall_mem_append

theorem Disturbed.eq_nil {t' : List Exchange} (h : Disturbed [] t') : t' = [] := by
  cases h
  rfl

theorem Disturbed.becomes {x : Exchange} {t' : List Exchange} (h : Disturbed [x] t') :
    x.Becomes t' := by
  cases h with
  | cons first rest =>
    rw [rest.eq_nil, List.append_nil]
    exact first

theorem Disturbed.split {t u s : List Exchange} (h : Disturbed (t ++ u) s) :
    ∃ t' u', s = t' ++ u' ∧ Disturbed t t' ∧ Disturbed u u' := by
  induction t generalizing s with
  | nil => exact ⟨[], s, rfl, .nil, h⟩
  | cons x t ih =>
    cases h with
    | cons first rest =>
      obtain ⟨t', u', rfl, ht, hu⟩ := ih rest
      exact ⟨_ ++ t', u', (List.append_assoc _ _ _).symm, .cons first ht, hu⟩

/-- Requests other than listings are answered by the replies. -/
theorem answers_asked {replies left : List Reply} {place : Place} {request : Request}
    {reply : Option Reply} {t : List Exchange} (hdump : request ≠ .dump) :
    Answers replies (.asked place request reply :: t) left ↔
      reply = replies.head? ∧ Answers replies.tail t left := by
  cases request with
  | dump => exact absurd rfl hdump
  | _ => rfl

theorem answers_append {replies left : List Reply} {t u : List Exchange} :
    Answers replies (t ++ u) left ↔
      ∃ between, Answers replies t between ∧ Answers between u left := by
  induction t generalizing replies with
  | nil => exact ⟨fun h => ⟨replies, rfl, h⟩, fun ⟨between, h, hu⟩ => h ▸ hu⟩
  | cons x t ih =>
    match x with
    | .entered .. => exact ih
    | .asked place request reply =>
      by_cases hdump : request = .dump
      · subst hdump
        exact ih
      · rw [List.cons_append, answers_asked hdump, ih]
        simp only [answers_asked hdump, and_assoc, exists_and_left]

namespace Kernel

variable {α β : Type} {blamed : String → Error → Prop}

/-! ## Work on an interrupted kernel -/

/-- A kernel with another script, and another history. -/
def scripted (k : Kernel) (replies : List Reply) (trace : List Exchange) : Kernel :=
  { k with replies := replies, trace := trace }

/-- The interruptions of some work are absorbed: whenever it asks `t` without any,

* under a script for `t` with interruptions it comes to the same and asks just that, and
* under a script that interrupts one of its look-ups every time it fails right then, with an error
  that is blamed on the name looked up. -/
structure Absorbed (blamed : String → Error → Prop) (work : KernelM α) (k : Kernel)
    (t : List Exchange) : Prop where
  trace : (k.perform work).2.trace = k.trace ++ t
  answers : Answers k.replies t (k.perform work).2.replies
  same : Undisturbed t → ∀ (t' T : List Exchange) (R S : List Reply),
    Disturbed t t' → Answers R t' S →
      (k.scripted R T).perform work = ((k.perform work).1, (k.perform work).2.scripted S (T ++ t'))
  missing : Undisturbed t → ∀ (t₁ t₂ t₁' T : List Exchange) (place : Place) (name : String)
    (reply : Option Reply) (R S : List Reply),
    t = t₁ ++ .asked place (.get name) reply :: t₂ → Disturbed t₁ t₁' →
    Answers R (t₁' ++ List.replicate 3 (missed place name)) S →
      ∃ e k', (k.scripted R T).perform work = (.error e, k') ∧ blamed name e ∧ k'.replies = S ∧
        k'.trace = T ++ (t₁' ++ List.replicate 3 (missed place name))

/-- On every kernel the interruptions of the work are absorbed. -/
def Absorbs (blamed : String → Error → Prop) (work : KernelM α) : Prop :=
  ∀ k : Kernel, ∃ t, Absorbed blamed work k t

theorem Absorbs.mono {blamed' : String → Error → Prop} {work : KernelM α}
    (h : Absorbs blamed work) (hb : ∀ name e, blamed name e → blamed' name e) :
    Absorbs blamed' work := by
  intro k
  obtain ⟨t, ht⟩ := h k
  refine ⟨t, ht.trace, ht.answers, ht.same, ?_⟩
  intro hquiet t₁ t₂ t₁' T place name reply R S heq hd ha
  obtain ⟨e, k', hrun, he, hS, htrace⟩ :=
    ht.missing hquiet t₁ t₂ t₁' T place name reply R S heq hd ha
  exact ⟨e, k', hrun, hb name e he, hS, htrace⟩

/-! ## Putting work together -/

theorem append_cases {t u t₁ t₂ : List Exchange} {x : Exchange} (h : t ++ u = t₁ ++ x :: t₂) :
    (∃ s, t₁ = t ++ s ∧ u = s ++ x :: t₂) ∨ ∃ s, t = t₁ ++ x :: s := by
  rcases List.append_eq_append_iff.1 h with hsecond | ⟨s, rfl, hs⟩
  · exact .inl hsecond
  · cases s with
    | nil => exact .inl ⟨[], by simp, hs.symm⟩
    | cons y s =>
      obtain ⟨rfl, -⟩ := List.cons.inj hs
      exact .inr ⟨s, rfl⟩

section

variable {work : KernelM α} {f : α → KernelM β} {k k₁ : Kernel} {t u : List Exchange}

theorem Absorbed.bind_error {e : Error} (h : Absorbed blamed work k t)
    (hwork : k.perform work = (.error e, k₁)) : Absorbed blamed (work >>= f) k t := by
  have hbase : k.perform (work >>= f) = (.error e, k₁) := by rw [perform_bind, hwork]
  refine ⟨?_, ?_, ?_, ?_⟩
  · rw [hbase, ← h.trace, hwork]
  · have hanswers := h.answers
    rw [hwork] at hanswers
    rwa [hbase]
  · intro hquiet t' T R S hd ha
    rw [perform_bind, h.same hquiet t' T R S hd ha, hwork, hbase]
  · intro hquiet t₁ t₂ t₁' T place name reply R S heq hd ha
    obtain ⟨e', k', hrun, hrest⟩ := h.missing hquiet t₁ t₂ t₁' T place name reply R S heq hd ha
    exact ⟨e', k', by rw [perform_bind, hrun], hrest⟩

/-- The replies that the first part leaves are those of the second. A look-up that is interrupted
every time is in the first part, which then fails, or in the second. -/
theorem Absorbed.bind_ok {a : α} (h : Absorbed blamed work k t)
    (hwork : k.perform work = (.ok a, k₁)) (hf : Absorbed blamed (f a) k₁ u) :
    Absorbed blamed (work >>= f) k (t ++ u) := by
  have hbase : k.perform (work >>= f) = k₁.perform (f a) := by rw [perform_bind, hwork]
  have htrace : k₁.trace = k.trace ++ t := by rw [← h.trace, hwork]
  -- what the first part comes to, under any script for it
  have hfirst : Undisturbed t → ∀ t' T R M, Disturbed t t' → Answers R t' M →
      (k.scripted R T).perform (work >>= f) = (k₁.scripted M (T ++ t')).perform (f a) := by
    intro hquiet t' T R M hd ha
    rw [perform_bind, h.same hquiet t' T R M hd ha, hwork]
  refine ⟨?_, ?_, ?_, ?_⟩
  · rw [hbase, hf.trace, htrace, List.append_assoc]
  · have hanswers := h.answers
    rw [hwork] at hanswers
    rw [hbase]
    exact answers_append.2 ⟨k₁.replies, hanswers, hf.answers⟩
  · intro hquiet s' T R S hd ha
    obtain ⟨hquiet, hquiet'⟩ := undisturbed_append.1 hquiet
    obtain ⟨t', u', rfl, hdt, hdu⟩ := hd.split
    obtain ⟨M, hat, hau⟩ := answers_append.1 ha
    rw [hfirst hquiet t' T R M hdt hat, hbase, ← List.append_assoc]
    exact hf.same hquiet' u' (T ++ t') M S hdu hau
  · intro hquiet t₁ t₂ t₁' T place name reply R S heq hd ha
    obtain ⟨hquiet, hquiet'⟩ := undisturbed_append.1 hquiet
    rcases append_cases heq with ⟨s, rfl, hu⟩ | ⟨s, ht⟩
    · obtain ⟨t', s', rfl, hdt, hds⟩ := hd.split
      rw [List.append_assoc] at ha
      obtain ⟨M, hat, has⟩ := answers_append.1 ha
      obtain ⟨e, k', hrun, he, hS, htrace'⟩ :=
        hf.missing hquiet' s t₂ s' (T ++ t') place name reply M S hu hds has
      refine ⟨e, k', ?_, he, hS, ?_⟩
      · rw [hfirst hquiet t' T R M hdt hat]
        exact hrun
      · rw [htrace', List.append_assoc, List.append_assoc]
    · obtain ⟨e, k', hrun, hrest⟩ := h.missing hquiet t₁ s t₁' T place name reply R S ht hd ha
      exact ⟨e, k', by rw [perform_bind, hrun], hrest⟩

end

/-- Interruptions of one part after the other. -/
theorem Absorbs.bind {work : KernelM α} {f : α → KernelM β} (h : Absorbs blamed work)
    (hf : ∀ a, Absorbs blamed (f a)) : Absorbs blamed (work >>= f) := by
  intro k
  obtain ⟨t, ht⟩ := h k
  match hwork : k.perform work with
  | (.error e, k₁) => exact ⟨t, ht.bind_error hwork⟩
  | (.ok a, k₁) =>
    obtain ⟨u, hu⟩ := hf a k₁
    exact ⟨t ++ u, ht.bind_ok hwork hu⟩

/-- Work without requests: it comes to the same under any script. -/
theorem absorbs_of_silent {work : KernelM α}
    (hquiet : ∀ k : Kernel, (k.perform work).2.trace = k.trace ∧
      (k.perform work).2.replies = k.replies)
    (hscript : ∀ (k : Kernel) (R : List Reply) (T : List Exchange),
      (k.scripted R T).perform work = ((k.perform work).1, (k.perform work).2.scripted R T)) :
    Absorbs blamed work := by
  intro k
  refine ⟨[], by rw [(hquiet k).1, List.append_nil], (hquiet k).2, ?_, ?_⟩
  · intro _ t' T R S hd ha
    rw [hd.eq_nil] at ha ⊢
    rw [hscript, ha, List.append_nil]
  · intro _ t₁ t₂ _ _ _ _ _ _ _ heq
    simp at heq

theorem absorbs_pure (a : α) : Absorbs blamed (pure a : KernelM α) :=
  absorbs_of_silent (fun _ => ⟨rfl, rfl⟩) fun _ _ _ => rfl

theorem absorbs_throw (e : Error) : Absorbs blamed (throw e : KernelM α) :=
  absorbs_of_silent (fun _ => ⟨rfl, rfl⟩) fun _ _ _ => rfl

theorem absorbs_report (notice : Notice) : Absorbs blamed (report notice) :=
  absorbs_of_silent (fun _ => ⟨rfl, rfl⟩) fun _ _ _ => rfl

theorem absorbs_openSocket (place : Place) : Absorbs blamed (openSocket place) := by
  refine absorbs_of_silent (fun k => ?_) fun k R T => ?_
  · rw [perform_openSocket]
    exact ⟨rfl, rfl⟩
  · rw [perform_openSocket, perform_openSocket]
    rfl

theorem absorbs_openNamespace (path : String) : Absorbs blamed (openNamespace path) := by
  refine absorbs_of_silent (fun k => ?_) fun k R T => ?_
  · rw [perform_openNamespace]
    exact ⟨rfl, rfl⟩
  · rw [perform_openNamespace, perform_openNamespace]
    rfl

/-- A failure that is reported and passed on as another one: it is blamed as that one is. -/
theorem Absorbs.relabel {blamed' : String → Error → Prop} {work : KernelM α}
    (h : Absorbs blamed work) (notice : Error → Notice) (label : Error → Error)
    (hb : ∀ name e, blamed name e → blamed' name (label e)) :
    Absorbs blamed' (tryCatch work fun e => do
      report (notice e)
      throw (label e)) := by
  have hfail (k : Kernel) (e : Error) :
      k.perform (do report (notice e); throw (label e) : KernelM α) =
        (.error (label e), { k with notices := k.notices ++ [notice e] }) := rfl
  intro k
  obtain ⟨t, ht⟩ := h k
  refine ⟨t, ?_, ?_, ?_, ?_⟩
  · have htrace := ht.trace
    rw [perform_tryCatch]
    match hwork : k.perform work with
    | (.ok a, k₁) => simpa [hwork] using htrace
    | (.error e, k₁) => simpa [hwork, hfail] using htrace
  · have hanswers := ht.answers
    rw [perform_tryCatch]
    match hwork : k.perform work with
    | (.ok a, k₁) => simpa [hwork] using hanswers
    | (.error e, k₁) => simpa [hwork, hfail] using hanswers
  · intro hquiet t' T R S hd ha
    rw [perform_tryCatch, perform_tryCatch, ht.same hquiet t' T R S hd ha]
    match k.perform work with
    | (.ok a, k₁) => rfl
    | (.error e, k₁) => rfl
  · intro hquiet t₁ t₂ t₁' T place name reply R S heq hd ha
    obtain ⟨e, k', hrun, he, hS, htrace⟩ :=
      ht.missing hquiet t₁ t₂ t₁' T place name reply R S heq hd ha
    refine ⟨label e, { k' with notices := k'.notices ++ [notice e] }, ?_, hb name e he, hS, htrace⟩
    rw [perform_tryCatch, hrun]
    exact hfail k' e

/-! ## Requests -/

/-- What the kernel notes of a request. -/
def heard (k : Kernel) (request : Request) : Kernel :=
  { k with
    signalled := k.signalled || !k.signalled && k.signal request
    notices := if !k.signalled && k.signal request then k.notices ++ [.signalReceived]
      else k.notices }

theorem heard_heard (k : Kernel) (request : Request) :
    (k.heard request).heard request = k.heard request := by
  cases hs : k.signalled <;> cases hr : k.signal request <;> simp [heard, hs, hr]

def afterAsk (k : Kernel) (socket : Socket) (request : Request) : Kernel :=
  (k.heard request).scripted k.replies.tail
    (k.trace ++ [.asked socket.place request k.replies.head?])

theorem perform_ask_bind (k : Kernel) (socket : Socket) {request : Request}
    (hdump : request ≠ .dump) (f : Option Reply → KernelM β) :
    k.perform (ask socket request >>= f) =
      (k.afterAsk socket request).perform (f k.replies.head?) := by
  cases request with
  | dump => exact absurd rfl hdump
  | _ => rfl

/-- A kernel with other replies to listings, and another history. -/
def listing (k : Kernel) (dumps : List Reply) (trace : List Exchange) : Kernel :=
  { k with dumps := dumps, trace := trace }

theorem perform_ask_dump (k : Kernel) (socket : Socket) :
    k.perform (ask socket .dump) = (.ok k.dumps.head?,
      (k.heard .dump).listing k.dumps.tail
        (k.trace ++ [.asked socket.place .dump k.dumps.head?])) := rfl

/-- A request that is no look-up. Work that goes on as it does without an interruption absorbs
it. -/
theorem absorbs_ask (socket : Socket) {request : Request} (hdump : request ≠ .dump)
    (hget : ∀ name, request ≠ .get name) {f : Option Reply → KernelM β}
    (hf : ∀ reply, Absorbs blamed (f reply))
    (hsame : ∀ reply xs, (Exchange.asked socket.place request reply).Becomes xs →
      ∃ reply', xs = [.asked socket.place request reply'] ∧ f reply' = f reply) :
    Absorbs blamed (ask socket request >>= f) := by
  intro k
  obtain ⟨u, hu⟩ := hf k.replies.head? (k.afterAsk socket request)
  -- the first request under any script for it and for what comes after it
  have hfirst : ∀ xs u' T R S,
      (Exchange.asked socket.place request k.replies.head?).Becomes xs → Answers R (xs ++ u') S →
      Answers R.tail u' S ∧ (k.scripted R T).perform (ask socket request >>= f) =
        ((k.afterAsk socket request).scripted R.tail (T ++ xs)).perform (f k.replies.head?) := by
    intro xs u' T R S hx ha
    obtain ⟨reply', rfl, hreply⟩ := hsame _ xs hx
    obtain ⟨rfl, hrest⟩ := (answers_asked hdump).1 ha
    refine ⟨hrest, ?_⟩
    rw [perform_ask_bind _ socket hdump, ← hreply]
    rfl
  refine ⟨.asked socket.place request k.replies.head? :: u, ?_, ?_, ?_, ?_⟩
  · rw [perform_ask_bind k socket hdump, hu.trace]
    exact List.append_assoc _ _ _
  · rw [perform_ask_bind k socket hdump]
    exact (answers_asked hdump).2 ⟨rfl, hu.answers⟩
  · intro hquiet s' T R S hd ha
    have hquiet' : Undisturbed u := (List.forall_mem_cons.1 hquiet).2
    cases hd with
    | cons hx hd =>
      obtain ⟨ha, hrun⟩ := hfirst _ _ T R S hx ha
      rw [hrun, perform_ask_bind k socket hdump, ← List.append_assoc]
      exact hu.same hquiet' _ _ _ _ hd ha
  · intro hquiet t₁ t₂ t₁' T place name reply R S heq hd ha
    have hquiet' : Undisturbed u := (List.forall_mem_cons.1 hquiet).2
    cases hd with
    | nil =>
      obtain ⟨hask, -⟩ := List.cons.inj heq
      injection hask with _ hname
      exact absurd hname (hget name)
    | cons hx hd =>
      obtain ⟨rfl, rfl⟩ := List.cons.inj heq
      rw [List.append_assoc] at ha
      obtain ⟨ha, hrun⟩ := hfirst _ _ T R S hx ha
      obtain ⟨e, k', hrun', he, hS, htrace⟩ := hu.missing hquiet' _ t₂ _ _ place name reply _ S
        rfl hd ha
      refine ⟨e, k', by rw [hrun, hrun'], he, hS, ?_⟩
      rw [htrace, List.append_assoc, List.append_assoc]

/-- A request that is neither a look-up nor a move is not interrupted. -/
theorem becomes_iff_of_change {place : Place} {request : Request} {reply : Option Reply}
    {xs : List Exchange} (hget : ∀ name, request ≠ .get name)
    (hmove : ∀ index attributes, request ≠ .set index none attributes) :
    (Exchange.asked place request reply).Becomes xs ↔ xs = [.asked place request reply] := by
  constructor
  · intro h
    cases h with
    | itself => rfl
    | repeated name => exact absurd rfl (hget _)
    | cutShort => exact absurd rfl (hmove _ _)
  · rintro rfl
    exact .itself _

theorem absorbs_enter (file : NamespaceFile) : Absorbs blamed (enter file) := by
  intro k
  have hentered : ∀ R T, (k.scripted R T).perform (enter file) =
      ((k.perform (enter file)).1, (k.perform (enter file)).2.scripted R
        (T ++ [.entered file.place (k.entries.head?.getD 0)])) := by
    intro R T
    rw [perform_enter, perform_enter]
    by_cases h : k.entries.head?.getD 0 = 0
    · simp only [scripted, h, ne_eq, not_true_eq_false, if_false]
      rfl
    · simp only [scripted, h, ne_eq, not_false_eq_true, if_true]
      rfl
  refine ⟨[.entered file.place (k.entries.head?.getD 0)], ?_, ?_, ?_, ?_⟩
  · rw [perform_enter]
    split
    · rfl
    · rfl
  · rw [perform_enter]
    split
    · rfl
    · rfl
  · intro _ t' T R S hd ha
    cases hd.becomes
    rw [hentered, show S = R from ha]
  · intro _ t₁ t₂ _ _ _ _ _ _ _ heq
    cases t₁ with
    | nil => cases heq
    | cons x t₁ => simp at heq

theorem absorbs_openSocketIn (file : NamespaceFile) : Absorbs blamed (openSocketIn file) :=
  (absorbs_enter file).bind fun _ => absorbs_openSocket file.place

end Kernel

namespace Socket

open Kernel

variable {α β : Type} {blamed : String → Error → Prop} (socket : Socket)

theorem absorbs_change (index : UInt32) (up : Bool) (attributes : List LinkAttribute) :
    Absorbs blamed (socket.change index (some up) attributes) := by
  refine absorbs_ask socket (by simp) (by simp) (fun _ => absorbs_pure _) fun reply xs hx => ?_
  exact ⟨reply, (becomes_iff_of_change (by simp) (by simp)).1 hx, rfl⟩

theorem absorbs_addAddress (index : UInt32) (address : Network) :
    Absorbs blamed (socket.addAddress index address) := by
  refine absorbs_ask socket (by simp) (by simp) (fun _ => absorbs_pure _) fun reply xs hx => ?_
  exact ⟨reply, (becomes_iff_of_change (by simp) (by simp)).1 hx, rfl⟩

/-- A move is absorbed by work that goes on after an interruption as after a success. -/
theorem absorbs_move (index : UInt32) (attributes : List LinkAttribute)
    {f : Except NetlinkError Unit → KernelM β} (hf : ∀ result, Absorbs blamed (f result))
    (hsame : f (Reply.changed (some .interruption)) = f (.ok ())) :
    Absorbs blamed (socket.change index none attributes >>= f) := by
  have hdump : Request.set index none attributes ≠ .dump := by simp
  refine absorbs_ask socket hdump (by simp) (fun reply => hf (Reply.changed reply))
    fun reply xs hx => ?_
  cases hx with
  | itself => exact ⟨reply, rfl, rfl⟩
  | cutShort _ _ _ _ success =>
    refine ⟨some .interruption, rfl, ?_⟩
    have hreply : f (Reply.changed reply) = f (.ok ()) := by rw [success]
    exact hsame.trans hreply.symm

theorem absorbs_setDown (index : UInt32) : Absorbs blamed (socket.setDown index) := by
  refine (socket.absorbs_change index false []).bind fun result => ?_
  cases result with
  | ok _ => exact absorbs_pure _
  | error e => exact absorbs_throw _

theorem absorbs_setUp (index : UInt32) : Absorbs blamed (socket.setUp index) := by
  refine (socket.absorbs_change index true []).bind fun result => ?_
  cases result with
  | ok _ => exact absorbs_pure _
  | error e => exact absorbs_throw _

/-- What a look-up comes to whose last reply is no interruption. -/
def found (name : String) (reply : Option Reply) : Except Error Link :=
  match Reply.link reply with
  | .ok (some link) => .ok link
  | _ => .error (Reply.fruitless name reply)

/-- An attempt to look up a link is the last one unless it is interrupted. -/
theorem perform_lookUp_succ (k : Kernel) (name : String) (n : Nat) :
    k.perform (socket.lookUp name (n + 1)) =
      if interrupts (Reply.link k.replies.head?) then
        (k.afterAsk socket (.get name)).perform (socket.lookUp name n)
      else (found name k.replies.head?, k.afterAsk socket (.get name)) := by
  rw [lookUp, perform_ask_bind k socket (by simp)]
  generalize k.replies.head? = reply
  unfold found
  cases hr : Reply.link reply with
  | ok link =>
    cases link with
    | some link => rfl
    | none =>
      rw [Reply.fruitless, hr]
      rfl
  | error e =>
    simp only [Reply.fruitless_of_error hr, interrupts_error]
    by_cases hdevice : e.errno = some (Errno.noDevice : Int)
    · have hnot : e.isInterrupted = false := by
        simp [NetlinkError.isInterrupted, hdevice, Errno.noDevice, Errno.interrupted]
      simp only [hdevice, hnot, if_true, true_or, Bool.false_eq_true, if_false]
      rfl
    · by_cases hinterrupted : e.isInterrupted = true
      · simp only [hdevice, hinterrupted, if_true, if_false]
      · simp only [hdevice, hinterrupted, if_false, or_self, Bool.false_eq_true]
        rfl

/-- The replies to a look-up are those that its trace tells of. -/
theorem answers_lookUp (k : Kernel) (name : String) (n : Nat) :
    ∃ t, (k.perform (socket.lookUp name n)).2.trace = k.trace ++ t ∧
      Answers k.replies t (k.perform (socket.lookUp name n)).2.replies := by
  induction n generalizing k with
  | zero => exact ⟨[], (List.append_nil _).symm, rfl⟩
  | succ n ih =>
    rw [perform_lookUp_succ]
    split
    · obtain ⟨t, ht, hanswers⟩ := ih (k.afterAsk socket (.get name))
      refine ⟨.asked socket.place (.get name) k.replies.head? :: t, ?_, ?_⟩
      · rw [ht]
        exact List.append_assoc _ _ _
      · exact (answers_asked (by simp)).2 ⟨rfl, hanswers⟩
    · exact ⟨[.asked socket.place (.get name) k.replies.head?], rfl,
        (answers_asked (by simp)).2 ⟨rfl, rfl⟩⟩

/-- An interrupted attempt goes on with the next. -/
theorem perform_lookUp_missed {k : Kernel} {name : String} {n : Nat} {t : List Exchange}
    {T : List Exchange} {R S : List Reply} (h : Answers R (missed socket.place name :: t) S) :
    Answers R.tail t S ∧ (k.scripted R T).perform (socket.lookUp name (n + 1)) =
      ((k.heard (.get name)).scripted R.tail (T ++ [missed socket.place name])).perform
        (socket.lookUp name n) := by
  obtain ⟨hhead, hrest⟩ := (answers_asked (by simp)).1 h
  refine ⟨hrest, ?_⟩
  have hinterrupted : interrupts (Reply.link R.head?) = true := by
    rw [← hhead]
    rfl
  rw [perform_lookUp_succ, show (k.scripted R T).replies.head? = R.head? from rfl,
    if_pos hinterrupted]
  unfold missed
  rw [hhead]
  rfl

/-- A look-up that is interrupted, though not every time, comes to what its last reply says. -/
theorem perform_lookUp_repeated {k : Kernel} {name : String} {reply : Option Reply} {m n : Nat}
    {T : List Exchange} {R S : List Reply} (hmn : m ≤ n)
    (hreply : interrupts (Reply.link reply) = false)
    (h : Answers R (List.replicate m (missed socket.place name) ++
      [.asked socket.place (.get name) reply]) S) :
    (k.scripted R T).perform (socket.lookUp name (n + 1)) =
      (found name reply, (k.heard (.get name)).scripted S (T ++
        (List.replicate m (missed socket.place name) ++
          [.asked socket.place (.get name) reply]))) := by
  induction m generalizing n k T R with
  | zero =>
    obtain ⟨rfl, rfl⟩ := (answers_asked (by simp)).1 h
    rw [perform_lookUp_succ]
    exact if_neg (Bool.eq_false_iff.1 hreply)
  | succ m ih =>
    cases n with
    | zero => omega
    | succ n =>
      obtain ⟨hrest, hrun⟩ := socket.perform_lookUp_missed (k := k) (n := n + 1) (T := T) h
      rw [hrun, ih (Nat.le_of_succ_le_succ hmn) hrest, heard_heard, List.append_assoc]
      rfl

/-- A look-up that is interrupted every time finds no device. -/
theorem perform_lookUp_exhausted {k : Kernel} {name : String} {n : Nat} {T : List Exchange}
    {R S : List Reply} (h : Answers R (List.replicate n (missed socket.place name)) S) :
    ∃ k' : Kernel, (k.scripted R T).perform (socket.lookUp name n) =
      (.error (.notFound .device name),
        k'.scripted S (T ++ List.replicate n (missed socket.place name))) := by
  induction n generalizing k T R with
  | zero =>
    refine ⟨k, ?_⟩
    rw [show S = R from h, List.replicate_zero, List.append_nil]
    rfl
  | succ n ih =>
    obtain ⟨hrest, hrun⟩ := socket.perform_lookUp_missed (k := k) (n := n) (T := T) h
    obtain ⟨k', hk'⟩ := ih (k := k.heard (.get name)) (T := T ++ [missed socket.place name]) hrest
    refine ⟨k', ?_⟩
    rw [hrun, hk', List.append_assoc]
    rfl

/-- A look-up absorbs interruptions, up to the one too many. -/
theorem absorbs_linkByName (name : String) :
    Absorbs (fun wanted e => wanted = name ∧ e = .notFound .device name)
      (socket.linkByName name) := by
  intro k
  have hbase := socket.perform_lookUp_succ k name 2
  cases hreply : interrupts (Reply.link k.replies.head?) with
  | true =>
    -- the first attempt is interrupted without any disturbance, so nothing is promised
    rw [if_pos hreply] at hbase
    obtain ⟨u, hu, hanswers⟩ := socket.answers_lookUp (k.afterAsk socket (.get name)) name 2
    have hrun : k.perform (socket.linkByName name) =
        (k.afterAsk socket (.get name)).perform (socket.lookUp name 2) := hbase
    refine ⟨.asked socket.place (.get name) k.replies.head? :: u, ?_, ?_, fun hquiet => ?_,
      fun hquiet => ?_⟩
    · rw [hrun, hu]
      exact List.append_assoc _ _ _
    · rw [hrun]
      exact (answers_asked (by simp)).2 ⟨rfl, hanswers⟩
    · exact absurd hreply (Bool.eq_false_iff.1 (List.forall_mem_cons.1 hquiet).1)
    · exact absurd hreply (Bool.eq_false_iff.1 (List.forall_mem_cons.1 hquiet).1)
  | false =>
    rw [if_neg (Bool.eq_false_iff.1 hreply)] at hbase
    have hrun : k.perform (socket.linkByName name) =
        (found name k.replies.head?, k.afterAsk socket (.get name)) := hbase
    refine ⟨[.asked socket.place (.get name) k.replies.head?], ?_, ?_, ?_, ?_⟩
    · rw [hrun]
      rfl
    · rw [hrun]
      exact (answers_asked (by simp)).2 ⟨rfl, rfl⟩
    · intro _ t' T R S hd ha
      rw [hrun]
      generalize k.replies.head? = reply at *
      cases hd.becomes with
      | itself => exact socket.perform_lookUp_repeated (m := 0) (Nat.zero_le 2) hreply ha
      | repeated _ _ _ m few =>
        exact socket.perform_lookUp_repeated (Nat.le_of_lt_succ few) hreply ha
    · intro _ t₁ t₂ t₁' T place wanted reply R S heq hd ha
      cases t₁ with
      | cons x t₁ => simp at heq
      | nil =>
        obtain ⟨hask, -⟩ := List.cons.inj heq
        obtain ⟨rfl, ⟨rfl⟩, -⟩ := Exchange.asked.inj hask
        rw [hd.eq_nil] at ha ⊢
        obtain ⟨k', hk'⟩ := socket.perform_lookUp_exhausted (k := k) (T := T) ha
        exact ⟨_, _, hk', ⟨rfl, rfl⟩, rfl, rfl⟩

end Socket

namespace Move

open Kernel

variable {blamed : String → Error → Prop}

/-! ## Moving devices -/

/-- A move that is interrupted has been carried out as one that succeeds. -/
theorem absorbs_execute (socket : Socket) (index : UInt32) (attributes : List LinkAttribute)
    (device : DeviceName) (ns : NamespaceRef) :
    Absorbs blamed (execute socket index attributes device ns) := by
  refine socket.absorbs_move index attributes (fun result => ?_) rfl
  cases result with
  | ok _ => exact absorbs_pure _
  | error e =>
    dsimp only
    split
    · exact absorbs_pure _
    · exact (absorbs_report _).bind fun _ => absorbs_throw _

theorem absorbs_addAddresses (socket : Socket) (index : UInt32) (target : NamespaceRef)
    (addresses : List Network) : Absorbs blamed (addAddresses socket index target addresses) := by
  induction addresses with
  | nil => exact absorbs_pure _
  | cons address addresses ih =>
    refine (socket.absorbs_addAddress index address).bind fun result => ?_
    cases result with
    | ok _ => exact ih
    | error e => exact absorbs_throw _

theorem absorbs_attach (device : DeviceName) (target : NamespaceRef) (config : LinkConfig)
    (addresses : List Network) :
    Absorbs (fun name e => e = .notFound .device name)
      (attach device target config addresses) := by
  refine (absorbs_openSocket .host).bind fun host => ?_
  refine ((host.absorbs_linkByName device.text).mono (by simp)).bind fun link => ?_
  refine (host.absorbs_setDown link.index).bind fun _ => ?_
  refine (absorbs_openNamespace target.file).bind fun file => ?_
  refine (absorbs_execute host link.index _ device target).bind fun _ => ?_
  refine (absorbs_openSocketIn file).bind fun inside => ?_
  refine ((inside.absorbs_linkByName _).relabel _ id (by simp)).bind fun moved => ?_
  refine (absorbs_addAddresses inside moved.index target addresses).bind fun _ => ?_
  have hup : Absorbs (fun _ _ => False) (inside.setUp moved.index) :=
    inside.absorbs_setUp moved.index
  refine (hup.relabel _ _ nofun).bind fun _ => ?_
  exact (absorbs_report _).bind fun _ => absorbs_pure _

theorem absorbs_bringUpOnHost (name : String) :
    Absorbs (fun wanted e => wanted = name ∧ e = .notFound .device name) (bringUpOnHost name) := by
  refine (absorbs_openSocket .host).bind fun host => ?_
  exact (host.absorbs_linkByName name).bind fun link => host.absorbs_setUp link.index

theorem absorbs_detach (source : NamespaceRef) (device : DeviceName) (restore : Option DeviceName) :
    Absorbs
      (fun name e => e = .notFound .device name ∨
        e = .enableFailed name "host" (Error.notFound .device name).message)
      (detach source device restore) := by
  refine (absorbs_openNamespace source.file).bind fun file => ?_
  refine (absorbs_openSocketIn file).bind fun inside => ?_
  refine ((inside.absorbs_linkByName device.text).mono ?_).bind fun link => ?_
  · rintro name e ⟨rfl, rfl⟩
    exact .inl rfl
  refine (inside.absorbs_setDown link.index).bind fun _ => ?_
  refine (absorbs_openNamespace _).bind fun hostFile => ?_
  refine (absorbs_execute inside link.index _ device source).bind fun _ => ?_
  refine ((absorbs_bringUpOnHost _).relabel _ _ ?_).bind fun _ => absorbs_report _
  rintro name e ⟨rfl, rfl⟩
  exact .inr rfl

/-! ## Listing devices -/

/-- What a listing stands in a conversation as that was cut short a few times. -/
def listings (place : Place) (cutShort rest : List Reply) : List Exchange :=
  cutShort.map (.asked place .dump ∘ some) ++ [.asked place .dump rest.head?]

/-- A listing that is interrupted, though not every time, has the links of the dump that follows. -/
theorem perform_dump {socket : Socket} {k : Kernel} {cutShort rest : List Reply}
    {links : List Link} {n : Nat} (hdumps : k.dumps = cutShort ++ rest) (hn : cutShort.length < n)
    (hcut : ∀ reply ∈ cutShort, interrupts (Reply.dumped (some reply)) = true)
    (hlinks : Reply.dumped rest.head? = .ok links) :
    k.perform (socket.dump n) = (.ok links,
      (k.heard .dump).listing rest.tail (k.trace ++ listings socket.place cutShort rest)) := by
  induction cutShort generalizing k n with
  | nil =>
    cases n with
    | zero => simp at hn
    | succ n =>
      rw [Socket.dump, perform_bind, perform_ask_dump, hdumps, List.nil_append]
      dsimp only
      rw [hlinks]
      rfl
  | cons reply cutShort ih =>
    obtain ⟨hreply, hcut⟩ := List.forall_mem_cons.1 hcut
    cases n with
    | zero => simp at hn
    | succ n =>
      rw [Socket.dump, perform_bind, perform_ask_dump, hdumps]
      dsimp only [List.cons_append, List.head?_cons, List.tail_cons]
      cases hd : Reply.dumped (some reply) with
      | ok _ =>
        rw [hd] at hreply
        cases hreply
      | error e =>
        rw [hd] at hreply
        have hagain (T : List Exchange) :
            ((k.heard .dump).listing (cutShort ++ rest) T).heard .dump =
              (k.heard .dump).listing (cutShort ++ rest) T :=
          congrArg (listing · (cutShort ++ rest) T) (heard_heard k .dump)
        dsimp only
        rw [if_pos (show e.isInterrupted = true from hreply),
          ih rfl (Nat.lt_of_succ_lt_succ hn) hcut, hagain]
        simp [listing, listings]

/-- A listing that the kernel cuts short once or twice has the devices of the dump that follows. -/
theorem perform_listDevices {k : Kernel} {cutShort rest : List Reply} {links : List Link}
    (hsocket : k.sockets.head?.getD 0 = 0) (hdumps : k.dumps = cutShort ++ rest)
    (hfew : cutShort.length < 3)
    (hcut : ∀ reply ∈ cutShort, interrupts (Reply.dumped (some reply)) = true)
    (hlinks : Reply.dumped rest.head? = .ok links) :
    k.perform listDevices = (.ok (links.filterMap Link.toDevice?),
      ({ k with sockets := k.sockets.tail }.heard .dump).listing rest.tail
        (k.trace ++ listings .host cutShort rest)) := by
  have hopened : { k with sockets := k.sockets.tail }.dumps = cutShort ++ rest := hdumps
  rw [listDevices, perform_bind, perform_openSocket, if_pos hsocket]
  dsimp only
  rw [perform_bind, Socket.links, show Socket.attempts = 3 from rfl,
    perform_dump hopened hfew hcut hlinks]
  rfl

theorem devices_of_links (links : List Link) :
    (links.filterMap Link.toDevice?).map (fun device => (device.index, device.name)) =
      links.filterMap fun link => link.name?.map (link.index, ·) := by
  induction links with
  | nil => rfl
  | cons link links ih =>
    cases hname : link.name? with
    | none => simpa [Link.toDevice?, hname] using ih
    | some name => simpa [Link.toDevice?, hname] using ih

/-! ## All of it -/

/-- **Interrupted replies.** Nobody who attaches, detaches or lists devices can tell that the kernel
was interrupted, as long as no request is interrupted every time; a look-up that is finds no
device. -/
theorem interruptions_pass_unseen :
    (∀ (device : DeviceName) (target : NamespaceRef) (config : LinkConfig)
      (addresses : List Network),
      Absorbs (fun name e => e = .notFound .device name)
        (attach device target config addresses)) ∧
    (∀ (source : NamespaceRef) (device : DeviceName) (restore : Option DeviceName),
      Absorbs
        (fun name e => e = .notFound .device name ∨
          e = .enableFailed name "host" (Error.notFound .device name).message)
        (detach source device restore)) ∧
    ∀ (k : Kernel) (cutShort rest : List Reply) (links : List Link),
      k.sockets.head?.getD 0 = 0 → k.dumps = cutShort ++ rest →
      cutShort.length < 3 →
      (∀ reply ∈ cutShort, interrupts (Reply.dumped (some reply)) = true) →
      Reply.dumped rest.head? = .ok links →
      ∃ devices : List Device,
        k.perform listDevices = (.ok devices,
          ({ k with sockets := k.sockets.tail }.heard .dump).listing rest.tail
            (k.trace ++ listings .host cutShort rest)) ∧
        devices = links.filterMap Link.toDevice? ∧
        devices.map (fun device => (device.index, device.name)) =
          links.filterMap fun link => link.name?.map (link.index, ·) := by
  refine ⟨absorbs_attach, absorbs_detach, ?_⟩
  intro k cutShort rest links hsocket hdumps hfew hcut hlinks
  have hrun := perform_listDevices hsocket hdumps hfew hcut hlinks
  exact ⟨_, hrun, rfl, devices_of_links links⟩

/-- A kernel that lets `eth0` go to a namespace, and whose first dump is cut short. -/
def obligingKernel : Kernel :=
  { quiet ((FileTree.system.addPath "ns" .directory).addPath "ns/w1" .namespaceFile) with
    replies := [.links [⟨4, [.up], [.name "eth0"]⟩] none, .done, .done,
      .links [⟨2, [], [.name "eth0"]⟩] none, .done]
    dumps := [.links [⟨4, [.up], [.name "eth0"]⟩] (some 4),
      .links [⟨1, [.up, .loopback], [.name "lo"]⟩, ⟨9, [], []⟩] none] }

/-- A device that it lets go. -/
def obligedDevice : DeviceName := ⟨"eth0", by decide, by decide, by decide, by decide⟩

/-- What is asked up to the second look-up. -/
def obligingMove : List Exchange :=
  [.asked .host (.get "eth0") (some (.links [⟨4, [.up], [.name "eth0"]⟩] none)),
    .asked .host (.set 4 (some false) []) (some .done),
    .asked .host (.set 4 none [.name "eth0", .netns (.file "ns/w1")]) (some .done),
    .entered (.file "ns/w1") 0]

/-- The second look-up. -/
def obligingFind : Exchange :=
  .asked (.file "ns/w1") (.get "eth0") (some (.links [⟨2, [], [.name "eth0"]⟩] none))

/-- What is asked when the device goes. -/
theorem obliging_attach :
    obligingKernel.perform (attach obligedDevice (.path "ns/w1") .empty []) =
      (.ok ⟨"eth0", "", []⟩,
        { obligingKernel with
          replies := []
          trace := obligingMove ++ obligingFind ::
            [.asked (.file "ns/w1") (.set 2 (some true) []) (some .done)]
          notices := [.attached obligedDevice "eth0" (.path "ns/w1") 0] }) := by
  cbv

/-- An attach that is interrupted five times, one whose second look-up is interrupted every time,
and a listing whose first dump is cut short. -/
theorem obliging_interrupted :
    ((obligingKernel.scripted
        [.refused 4, .refused 4, .links [⟨4, [.up], [.name "eth0"]⟩] none, .done, .refused 4,
          .refused 4, .refused 4, .links [⟨2, [], [.name "eth0"]⟩] none, .done] []).perform
      (attach obligedDevice (.path "ns/w1") .empty [])).1 = .ok ⟨"eth0", "", []⟩ ∧
    (∃ k', (obligingKernel.scripted
        [.links [⟨4, [.up], [.name "eth0"]⟩] none, .done, .done, .refused 4, .refused 4,
          .refused 4, .done] []).perform (attach obligedDevice (.path "ns/w1") .empty []) =
        (.error (.notFound .device "eth0"), k') ∧ k'.replies = [.done]) ∧
    (obligingKernel.perform listDevices).1 = .ok [⟨1, "lo", none, none, true, .loopback⟩] := by
  obtain ⟨hattach, -, hlist⟩ := interruptions_pass_unseen
  obtain ⟨t, ht⟩ := hattach obligedDevice (.path "ns/w1") .empty [] obligingKernel
  have htrace := ht.trace
  rw [obliging_attach, show obligingKernel.trace = [] from rfl, List.nil_append] at htrace
  subst htrace
  have hquiet : Undisturbed (obligingMove ++ obligingFind ::
      [.asked (.file "ns/w1") (.set 2 (some true) []) (some .done)]) := by
    unfold Undisturbed
    decide
  refine ⟨?_, ?_, ?_⟩
  · have hdisturbed : Disturbed (obligingMove ++ obligingFind ::
        [.asked (.file "ns/w1") (.set 2 (some true) []) (some .done)]) _ :=
      .cons (.repeated .host "eth0" _ 2 (by decide)) <| .cons (.itself _) <|
      .cons (.cutShort .host 4 _ (some .done) rfl) <| .cons (.itself _) <|
      .cons (.repeated (.file "ns/w1") "eth0" _ 2 (by decide)) <| .cons (.itself _) .nil
    refine (congrArg Prod.fst (ht.same hquiet _ [] _ [] hdisturbed ?_)).trans ?_
    · exact ⟨rfl, rfl, rfl, rfl, rfl, rfl, rfl, rfl, rfl, rfl⟩
    · rw [obliging_attach]
  · have hdisturbed : Disturbed obligingMove _ :=
      .cons (.itself _) <| .cons (.itself _) <| .cons (.itself _) <| .cons (.itself _) .nil
    obtain ⟨_, k', hrun, rfl, hleft, -⟩ := ht.missing hquiet obligingMove _ _ [] _ _ _
      [.links [⟨4, [.up], [.name "eth0"]⟩] none, .done, .done, .refused 4, .refused 4, .refused 4,
        .done] _ rfl hdisturbed ⟨rfl, rfl, rfl, rfl, rfl, rfl, rfl⟩
    exact ⟨k', hrun, hleft⟩
  · obtain ⟨devices, hrun, rfl, -⟩ := hlist obligingKernel
      [.links [⟨4, [.up], [.name "eth0"]⟩] (some 4)]
      [.links [⟨1, [.up, .loopback], [.name "lo"]⟩, ⟨9, [], []⟩] none]
      [⟨1, [.up, .loopback], [.name "lo"]⟩, ⟨9, [], []⟩] rfl rfl (by decide) (by decide) rfl
    rw [hrun]
    rfl

end Move

end NetRelocation
