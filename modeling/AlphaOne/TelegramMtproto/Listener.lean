import AlphaOne.Foundations.BackgroundTask
import AlphaOne.Schema.Time
import Mathlib.Algebra.Order.Group.Nat

/-!
# The listener on a user account

`MTProtoListener` of `services/telegram_mtproto/client.py`: a background task builds a client,
connects it, asks whether its session is authorized, looks the channel up, and registers the handler
of its messages. Where a step raises it waits and starts over with a new client; the old one is
left as it is. Once connected, a client reconnects by itself until it is disconnected.

`listener_sound` says what the status reports and how often a message is handled, in all
interleavings of the calls, the task, the network and the messages, when nobody starts the listener
again over a session it takes to be authorized, nor during a stop.
-/

namespace AlphaOne.TelegramMtproto

open Foundations

/-- `RECONNECT_DELAYS_SECONDS`. -/
def reconnectDelaysSeconds : List ℕ := [2, 4, 8, 16, 30]

/-- The delay after so many failed attempts and one more. -/
def reconnectDelay (attempt : ℕ) : ℕ :=
  reconnectDelaysSeconds.getD (min attempt (reconnectDelaysSeconds.length - 1)) 0

/-- A client: whether it is connected, whether it has been told that its session is authorized, how
many handlers of new messages it has, and whether it has been disconnected for good. -/
structure Client where
  connected : Bool := false
  checked : Bool := false
  handlers : ℕ := 0
  closed : Bool := false
  deriving DecidableEq, Repr

/-- The client hands a message on. -/
def Client.live (m : Client) : Bool := m.connected && !m.closed

/-- The clients that have been built, the state of the listener, and a record of how often each
message with a text has been handed to `process_incoming_channel_message`. -/
structure ListenerState where
  /-- `_client_configured()`. -/
  configured : Bool
  clients : List Client := []
  /-- `_client`, by its place among the clients. -/
  client : Option ℕ := none
  authorized : Bool := false
  stopEvent : Option Bool := none
  resolvedChannelId : Option String := none
  lastEventAt : Option Datetime := none
  lastEventType : Option String := none
  handled : List ℕ := []
  deriving DecidableEq, Repr

namespace ListenerState

/-- `is_connected`. -/
def isConnected (g : ListenerState) : Bool :=
  g.client.any fun c => g.clients[c]?.any Client.connected

/-- `is_authorized`. -/
def isAuthorized (g : ListenerState) : Bool := g.authorized && g.isConnected

/-- What becomes of the current client. -/
def onClient (f : Client → Client) (g : ListenerState) : ListenerState :=
  match g.client with
  | none => g
  | some c => { g with clients := g.clients.modify c f }

/-- How often a message that comes now is handled. -/
def copies (g : ListenerState) : ℕ :=
  (g.clients.map fun m => if m.live then m.handlers else 0).sum

end ListenerState

/-- Where `_run` is, after so many failed attempts. -/
inductive ListenerPhase
  | created
  | connecting (attempt : ℕ)
  | checking (attempt : ℕ)
  | resolving (attempt : ℕ)
  | waiting (attempt delay : ℕ)
  deriving DecidableEq, Repr

/-- How a step of `_run` ends: whether it raises; if not, the answer of `is_user_authorized`, and
the id of the entity that `get_entity` returns. -/
structure Reply where
  raises : Bool := false
  authorized : Bool := true
  entityId : String := ""
  deriving DecidableEq, Repr

inductive NetworkEvent
  | drops (client : ℕ)
  | reconnects (client : ℕ)
  /-- A new or edited post of the channel. -/
  | message (hasText isEdit : Bool) (now : Datetime)
  deriving DecidableEq, Repr

/-- The `except` clause. -/
def retryLater (attempt : ℕ) (g : ListenerState) : ListenerState × Option ListenerPhase :=
  ({ g with authorized := false }, some (.waiting (attempt + 1) (reconnectDelay attempt)))

/-- A client is built, and `connect()` is called. -/
def buildClient (attempt : ℕ) (reply : Reply) (g : ListenerState) :
    ListenerState × Option ListenerPhase :=
  if reply.raises then retryLater attempt g
  else
    ({ g with clients := g.clients ++ [{}], client := some g.clients.length },
      some (.connecting attempt))

/-- `_run`, from one `await` to the next. -/
def listenerRun (phase : ListenerPhase) (reply : Reply) (g : ListenerState) :
    ListenerState × Option ListenerPhase :=
  match phase with
  | .created => buildClient 0 reply g
  | .connecting attempt =>
    if reply.raises then retryLater attempt g
    else (g.onClient fun m => { m with connected := true }, some (.checking attempt))
  | .checking attempt =>
    if reply.raises then retryLater attempt g
    else if reply.authorized then
      ({ g.onClient fun m => { m with checked := true } with authorized := true },
        some (.resolving attempt))
    else ({ g with authorized := false }, none)
  | .resolving attempt =>
    if reply.raises then retryLater attempt g
    else
      ({ g.onClient fun m => { m with handlers := m.handlers + 1 } with
        resolvedChannelId := some reply.entityId }, none)
  | .waiting attempt _ =>
    if g.stopEvent = some true then (g, none) else buildClient attempt reply g

/-- What the outside world does; `_handle_event`, for a message. -/
def networkEvent (event : NetworkEvent) (g : ListenerState) : ListenerState :=
  match event with
  | .drops c => { g with clients := g.clients.modify c fun m => { m with connected := false } }
  | .reconnects c =>
    { g with
      clients := g.clients.modify c fun m => if m.closed then m else { m with connected := true } }
  | .message hasText isEdit now =>
    if hasText && 0 < g.copies then
      { g with
        lastEventAt := some now
        lastEventType := some (if isEdit then "edited_channel_post" else "channel_post")
        handled := g.handled ++ [g.copies] }
    else g

/-- `start`, `stop` and `_run`. A stop disconnects the client it finds, and forgets the current
one. -/
def listener : Supervisor ListenerState ListenerPhase (Option ℕ) Reply NetworkEvent where
  mayStart g := !g.isConnected && g.configured
  begin g := ({ g with stopEvent := some false }, .created)
  stopping g := { g with stopEvent := g.stopEvent.map fun _ => true }
  close g := g.client
  closed x g :=
    match x with
    | none => { g with authorized := false }
    | some c =>
      { g with
        clients := g.clients.modify c fun m => { m with connected := false, closed := true }
        client := none
        authorized := false }
  resume := listenerRun
  outside := networkEvent

/-- `is_running`. -/
def isRunning (s : Supervision ListenerState ListenerPhase (Option ℕ)) : Bool :=
  s.isRunning || s.shared.isConnected

/-- What `get_status` reports of the connection. -/
structure MTProtoStatus where
  connected : Bool
  authorized : Bool
  resolvedChannelId : Option String
  listenerRunning : Bool
  lastEventAt : Option Datetime
  lastEventType : Option String
  secondsSinceLastEvent : Option ℚ
  deriving DecidableEq, Repr

/-- `get_status`. -/
def getStatus (s : Supervision ListenerState ListenerPhase (Option ℕ)) (now : Datetime) :
    MTProtoStatus where
  connected := s.shared.isConnected
  authorized := s.shared.isAuthorized
  resolvedChannelId := s.shared.resolvedChannelId
  listenerRunning := isRunning s
  lastEventAt := s.shared.lastEventAt
  lastEventType := s.shared.lastEventType
  secondsSinceLastEvent := s.shared.lastEventAt.map fun t => Timedelta.totalSeconds (now - t)

/-! ## What the listener and its task keep -/

/-- The phases in which `_run` works with the client it has built. -/
def ListenerPhase.hasClient : ListenerPhase → Bool
  | .connecting _ | .checking _ | .resolving _ => true
  | .created | .waiting .. => false

/-- The phase between the answer of `is_user_authorized` and the registration of the handler. -/
def ListenerPhase.isResolving : ListenerPhase → Bool
  | .resolving _ => true
  | _ => false

/-- The listener takes itself to be authorized when its current client has been told so. A client
that still counts and has a handler is the current one, and has one; while the task goes on there is
none, and the listener takes itself to be authorized only just before the registration. -/
structure ListenerKept (g : ListenerState) (phase : Option ListenerPhase) : Prop where
  client : ∀ c, g.client = some c → c < g.clients.length
  authorized : g.authorized = true →
    ∃ c m, g.client = some c ∧ g.clients[c]? = some m ∧ m.checked = true
  handlers : ∀ (c : ℕ) (m : Client), g.clients[c]? = some m → m.closed = false → m.handlers ≠ 0 →
    g.client = some c ∧ g.authorized = true ∧ m.handlers = 1 ∧ phase = none
  phase : ∀ p, phase = some p →
    g.authorized = p.isResolving ∧ (p.hasClient = true → g.client ≠ none)
  handled : ∀ k ∈ g.handled, k ≤ 1

variable {g : ListenerState} {phase : Option ListenerPhase}

theorem getElem?_modify_eq_some {l : List Client} {c i : ℕ} {f : Client → Client} {m : Client}
    (h : (l.modify c f)[i]? = some m) :
    ∃ m₀, l[i]? = some m₀ ∧ m = if c = i then f m₀ else m₀ := by
  simp only [List.getElem?_modify, Option.map_eq_map, Option.map_eq_some_iff] at h
  obtain ⟨m₀, hm₀, rfl⟩ := h
  exact ⟨m₀, hm₀, rfl⟩

theorem getElem?_modify_of {l : List Client} {c i : ℕ} {f : Client → Client} {m : Client}
    (h : l[i]? = some m) : (l.modify c f)[i]? = some (if c = i then f m else m) := by
  simp [List.getElem?_modify, h]

/-- A change of one client that leaves what it has been told, its handlers and its end. -/
theorem ListenerKept.modify (h : ListenerKept g phase) (c : ℕ) {f : Client → Client}
    (hf : ∀ m, (f m).checked = m.checked ∧ (f m).handlers = m.handlers ∧
      (f m).closed = m.closed) :
    ListenerKept { g with clients := g.clients.modify c f } phase where
  client d hd := by simpa using h.client d hd
  authorized ha := by
    obtain ⟨d, m, hd, hm, hchecked⟩ := h.authorized ha
    refine ⟨d, _, hd, getElem?_modify_of hm, ?_⟩
    split_ifs
    · rw [(hf m).1, hchecked]
    · exact hchecked
  handlers d m hm hclosed hhandlers := by
    obtain ⟨m₀, hm₀, rfl⟩ := getElem?_modify_eq_some hm
    split_ifs at hclosed hhandlers ⊢
    · rw [(hf m₀).2.2] at hclosed
      rw [(hf m₀).2.1] at hhandlers ⊢
      exact h.handlers d m₀ hm₀ hclosed hhandlers
    · exact h.handlers d m₀ hm₀ hclosed hhandlers
  phase := h.phase
  handled := h.handled

/-- The task goes on, with no more than the listener's authorization changed. -/
theorem ListenerKept.continue {p : ListenerPhase} (h : ListenerKept g (some p)) (q : ListenerPhase)
    (hq : q.isResolving = false) (hclient : q.hasClient = true → g.client ≠ none) :
    ListenerKept { g with authorized := false } (some q) where
  client := h.client
  authorized ha := by cases ha
  handlers c m hm hclosed hhandlers := by
    have := (h.handlers c m hm hclosed hhandlers).2.2.2
    cases this
  phase r hr := by
    obtain rfl := Option.some.inj hr
    exact ⟨hq.symm, hclient⟩
  handled := h.handled

/-- The task ends without having registered its handler. -/
theorem ListenerKept.giveUp {p : ListenerPhase} (h : ListenerKept g (some p)) :
    ListenerKept { g with authorized := false } none where
  client := h.client
  authorized ha := by cases ha
  handlers c m hm hclosed hhandlers := by
    have := (h.handlers c m hm hclosed hhandlers).2.2.2
    cases this
  phase r hr := by cases hr
  handled := h.handled

theorem ListenerKept.retryLater {p : ListenerPhase} (h : ListenerKept g (some p)) (attempt : ℕ) :
    ListenerKept (retryLater attempt g).1 (retryLater attempt g).2 :=
  h.continue _ rfl fun hq => by cases hq

theorem ListenerKept.buildClient {p : ListenerPhase} (h : ListenerKept g (some p))
    (hp : p.isResolving = false) (attempt : ℕ) (reply : Reply) :
    ListenerKept (buildClient attempt reply g).1 (buildClient attempt reply g).2 := by
  have hauth : g.authorized = false := by rw [(h.phase p rfl).1, hp]
  unfold TelegramMtproto.buildClient
  split_ifs
  · exact h.retryLater attempt
  · refine ⟨fun c hc => ?_, fun ha => ?_, fun c m hm hclosed hhandlers => ?_, fun q hq => ?_,
      h.handled⟩
    · obtain rfl := Option.some.inj hc
      simp
    · rw [hauth] at ha
      cases ha
    · -- the new client has no handlers, and the old ones that count have none
      rcases Nat.lt_or_ge c g.clients.length with hc | hc
      · rw [List.getElem?_append_left hc] at hm
        have := (h.handlers c m hm hclosed hhandlers).2.2.2
        cases this
      · rw [List.getElem?_append_right hc] at hm
        obtain ⟨hzero, rfl⟩ : c - g.clients.length = 0 ∧ m = {} := by
          simpa [List.getElem?_singleton, eq_comm] using hm
        exact absurd rfl hhandlers
    · obtain rfl := Option.some.inj hq
      exact ⟨hauth, by simp⟩

/-- The task goes on, and nothing else changes. -/
theorem ListenerKept.goOn {p q : ListenerPhase} (h : ListenerKept g (some p))
    (hres : q.isResolving = p.isResolving) (hclient : q.hasClient = true → p.hasClient = true) :
    ListenerKept g (some q) where
  client := h.client
  authorized := h.authorized
  handlers c m hm hclosed hhandlers := by
    have := (h.handlers c m hm hclosed hhandlers).2.2.2
    cases this
  phase r hr := by
    obtain rfl := Option.some.inj hr
    obtain ⟨hauth, hp⟩ := h.phase p rfl
    exact ⟨by rw [hauth, hres], fun hq => hp (hclient hq)⟩
  handled := h.handled

/-- The client has been told that its session is authorized. -/
theorem ListenerKept.authorize {attempt : ℕ} (h : ListenerKept g (some (.checking attempt)))
    {c : ℕ} (hc : g.client = some c) :
    ListenerKept { g with
      clients := g.clients.modify c fun m => { m with checked := true }
      authorized := true } (some (.resolving attempt)) where
  client d hd := by simpa using h.client d hd
  authorized _ := by
    have hlt := h.client c hc
    exact ⟨c, _, hc, getElem?_modify_of (List.getElem?_eq_getElem hlt), by simp⟩
  handlers d m hm hclosed hhandlers := by
    obtain ⟨m₀, hm₀, rfl⟩ := getElem?_modify_eq_some hm
    have hnone : m₀.closed = false → m₀.handlers ≠ 0 →
        some (ListenerPhase.checking attempt) = none :=
      fun hcl hh => (h.handlers d m₀ hm₀ hcl hh).2.2.2
    split_ifs at hclosed hhandlers
    · cases hnone hclosed hhandlers
    · cases hnone hclosed hhandlers
  phase q hq := by
    obtain rfl := Option.some.inj hq
    exact ⟨rfl, fun _ => by simp [hc]⟩
  handled := h.handled

/-- The handler is registered with the client, and the task ends. -/
theorem ListenerKept.register {attempt : ℕ} (h : ListenerKept g (some (.resolving attempt)))
    {c : ℕ} (hc : g.client = some c) (id : String) :
    ListenerKept { g with
      clients := g.clients.modify c fun m => { m with handlers := m.handlers + 1 }
      resolvedChannelId := some id } none where
  client d hd := by simpa using h.client d hd
  authorized ha := by
    obtain ⟨d, m, hd, hm, hchecked⟩ := h.authorized ha
    refine ⟨d, _, hd, getElem?_modify_of hm, ?_⟩
    split_ifs <;> exact hchecked
  handlers d m hm hclosed hhandlers := by
    have hauth : g.authorized = true := (h.phase _ rfl).1
    obtain ⟨m₀, hm₀, rfl⟩ := getElem?_modify_eq_some hm
    have hnone : m₀.closed = false → m₀.handlers = 0 := by
      intro hcl
      by_contra hne
      cases (h.handlers d m₀ hm₀ hcl hne).2.2.2
    split_ifs at hclosed hhandlers ⊢ with hcd
    · subst hcd
      exact ⟨hc, hauth, by simp [hnone hclosed], rfl⟩
    · exact absurd (hnone hclosed) hhandlers
  phase q hq := by cases hq
  handled := h.handled

/-- **`_run` keeps the invariant**, from one `await` to the next. -/
theorem ListenerKept.resume {p : ListenerPhase} (h : ListenerKept g (some p)) (reply : Reply) :
    ListenerKept (listenerRun p reply g).1 (listenerRun p reply g).2 := by
  have hclient : p.hasClient = true → ∃ c, g.client = some c := fun hp =>
    Option.ne_none_iff_exists'.1 ((h.phase p rfl).2 hp)
  cases p with
  | created => exact h.buildClient rfl 0 reply
  | connecting attempt =>
    unfold listenerRun
    dsimp only
    split_ifs
    · exact h.retryLater attempt
    · obtain ⟨c, hc⟩ := hclient rfl
      simp only [ListenerState.onClient, hc]
      have hmod := h.modify c (f := fun m => { m with connected := true }) (by simp)
      rw [hc] at hmod
      exact hmod.goOn rfl fun _ => rfl
  | checking attempt =>
    unfold listenerRun
    dsimp only
    split_ifs
    · exact h.retryLater attempt
    · obtain ⟨c, hc⟩ := hclient rfl
      have hauth := h.authorize hc
      rw [hc] at hauth
      simpa only [ListenerState.onClient, hc] using hauth
    · exact h.giveUp
  | resolving attempt =>
    unfold listenerRun
    dsimp only
    split_ifs
    · exact h.retryLater attempt
    · obtain ⟨c, hc⟩ := hclient rfl
      have hreg := h.register hc reply.entityId
      rw [hc] at hreg
      simpa only [ListenerState.onClient, hc] using hreg
  | waiting attempt delay =>
    unfold listenerRun
    dsimp only
    split_ifs
    · have hauth : g.authorized = false := (h.phase _ rfl).1
      have hend := h.giveUp
      rwa [← hauth] at hend
    · exact h.buildClient rfl attempt reply

/-! ## A message is handled once -/

/-- A sum in which no two terms count, and none counts more than once. -/
theorem sum_le_one {l : List ℕ} (hle : ∀ a ∈ l, a ≤ 1)
    (hone : ∀ i j a b : ℕ, l[i]? = some a → l[j]? = some b → a ≠ 0 → b ≠ 0 → i = j) :
    l.sum ≤ 1 := by
  induction l with
  | nil => simp
  | cons a l ih =>
    have hrest := ih (fun b hb => hle b (List.mem_cons_of_mem _ hb)) fun i j b c hb hc hb0 hc0 => by
      have := hone (i + 1) (j + 1) b c (by simpa using hb) (by simpa using hc) hb0 hc0
      omega
    rcases Nat.eq_zero_or_pos a with rfl | ha
    · simpa using hrest
    · have hzero : ∀ b ∈ l, b = 0 := by
        intro b hb
        by_contra hb0
        obtain ⟨j, hj⟩ := List.mem_iff_getElem?.1 hb
        have := hone 0 (j + 1) a b (by simp) (by simpa using hj) (by omega) hb0
        omega
      rw [List.sum_cons, List.sum_eq_zero_iff_forall_eq_nat.2 hzero]
      have := hle a List.mem_cons_self
      omega

theorem copies_le_one (h : ListenerKept g phase) : g.copies ≤ 1 := by
  have hterm : ∀ (i a : ℕ), (g.clients.map fun m => if m.live then m.handlers else 0)[i]? = some a →
      a ≠ 0 → g.client = some i ∧ a = 1 := by
    intro i a ha hne
    rw [List.getElem?_map, Option.map_eq_some_iff] at ha
    obtain ⟨m, hm, rfl⟩ := ha
    by_cases hlive : m.live = true
    · rw [if_pos hlive] at hne ⊢
      have hclosed : m.closed = false := by
        simp only [Client.live, Bool.and_eq_true, Bool.not_eq_true'] at hlive
        exact hlive.2
      obtain ⟨hc, -, hone, -⟩ := h.handlers i m hm hclosed hne
      exact ⟨hc, hone⟩
    · rw [if_neg hlive] at hne
      exact absurd rfl hne
  refine sum_le_one (fun a ha => ?_) fun i j a b hi hj ha hb => ?_
  · obtain ⟨i, hi⟩ := List.mem_iff_getElem?.1 ha
    by_cases hne : a = 0
    · omega
    · exact (hterm i a hi hne).2.le
  · exact Option.some.inj ((hterm i a hi ha).1.symm.trans (hterm j b hj hb).1)

/-- Without a current client no message is handled. -/
theorem copies_eq_zero (h : ListenerKept g phase) (hnone : g.client = none) : g.copies = 0 := by
  refine List.sum_eq_zero_iff_forall_eq_nat.2 fun a ha => ?_
  obtain ⟨m, hm, rfl⟩ := List.mem_map.1 ha
  obtain ⟨i, hi⟩ := List.mem_iff_getElem?.1 hm
  by_contra hne
  by_cases hlive : m.live = true
  · rw [if_pos hlive] at hne
    simp only [Client.live, Bool.and_eq_true, Bool.not_eq_true'] at hlive
    rw [(h.handlers i m hi hlive.2 hne).1] at hnone
    cases hnone
  · rw [if_neg hlive] at hne
    exact hne rfl

theorem listener_invariant : Supervision.Invariant listener (fun g => g.authorized = false)
    ListenerKept fun x g => g.client = x ∨ g.client = none where
  begin g _ hauth h := by
    refine ⟨h.client, fun ha => ?_, fun c m hm hclosed hhandlers => ?_, fun p hp => ?_, h.handled⟩
    · exact absurd (hauth.symm.trans ha) (by simp)
    · exact absurd (hauth.symm.trans (h.handlers c m hm hclosed hhandlers).2.1) (by simp)
    · obtain rfl := Option.some.inj hp
      exact ⟨hauth, fun hc => by cases hc⟩
  stopping g b h := by
    refine ⟨h.client, h.authorized, fun c m hm hclosed hhandlers => ?_, by simp, h.handled⟩
    obtain ⟨hc, hauth, hone, -⟩ := h.handlers c m hm hclosed hhandlers
    exact ⟨hc, hauth, hone, rfl⟩
  close g := Or.inl rfl
  closed g x h hx := by
    -- the client that is disconnected is the only one that had a handler
    cases x with
    | none =>
      have hnone : g.client = none := hx.elim id id
      refine ⟨h.client, fun ha => (by cases ha), fun c m hm hclosed hhandlers => ?_, by simp,
        h.handled⟩
      have hc := (h.handlers c m hm hclosed hhandlers).1
      rw [hnone] at hc
      cases hc
    | some d =>
      refine ⟨fun c hc => (by cases hc), fun ha => (by cases ha),
        fun c m hm hclosed hhandlers => ?_, by simp, h.handled⟩
      obtain ⟨m₀, hm₀, rfl⟩ := getElem?_modify_eq_some hm
      split_ifs at hclosed hhandlers with hdc
      · have hc := (h.handlers c m₀ hm₀ hclosed hhandlers).1
        rcases hx with hx | hx
        · exact absurd (Option.some.inj (hx.symm.trans hc)) hdc
        · rw [hx] at hc
          cases hc
  resume g b e h := h.resume e
  outside g b e h := by
    cases e with
    | drops c => exact h.modify c fun m => ⟨rfl, rfl, rfl⟩
    | reconnects c =>
      refine h.modify c fun m => ?_
      split_ifs <;> exact ⟨rfl, rfl, rfl⟩
    | message hasText isEdit now =>
      simp only [listener, networkEvent]
      by_cases hnew : hasText && 0 < g.copies
      · rw [if_pos hnew]
        refine ⟨h.client, h.authorized, h.handlers, h.phase, fun k hk => ?_⟩
        rcases List.mem_append.1 hk with hk | hk
        · exact h.handled k hk
        · rw [List.mem_singleton.1 hk]
          exact copies_le_one h
      · rwa [if_neg hnew]
  related_stopping g x hx := hx
  related_closed g x y hx hy := by
    cases x with
    | none => exact hy
    | some d => exact Or.inr rfl
  related_outside g x e hx := by
    cases e with
    | drops c => exact hx
    | reconnects c => exact hx
    | message hasText isEdit now =>
      simp only [listener, networkEvent]
      split_ifs <;> exact hx

/-- Without a current client, and with these messages handled. -/
structure Released (handled : List ℕ) (g : ListenerState) : Prop where
  kept : ListenerKept g none
  client : g.client = none
  handled : g.handled = handled

theorem Released.stopping {handled : List ℕ} (h : Released handled g) :
    Released handled (listener.stopping g) :=
  ⟨listener_invariant.stopping g none h.kept, h.client, h.handled⟩

theorem Released.closed {handled : List ℕ} (h : Released handled g) (x : Option ℕ) :
    Released handled (listener.closed x g) := by
  refine ⟨listener_invariant.closed g x h.kept (Or.inr h.client), ?_, ?_⟩
  · cases x with
    | none => exact h.client
    | some d => rfl
  · cases x <;> exact h.handled

theorem Released.outside {handled : List ℕ} (h : Released handled g) (e : NetworkEvent) :
    Released handled (listener.outside e g) := by
  have hkept := listener_invariant.outside g none e h.kept
  cases e with
  | drops c => exact ⟨hkept, h.client, h.handled⟩
  | reconnects c => exact ⟨hkept, h.client, h.handled⟩
  | message hasText isEdit now =>
    have hsame : listener.outside (.message hasText isEdit now) g = g := by
      simp [listener, networkEvent, copies_eq_zero h.kept h.client]
    rwa [hsame]

/-- A stop that returns has released the client. -/
theorem Released.of_closing {x : Option ℕ} (h : ListenerKept g none)
    (hx : g.client = x ∨ g.client = none) : Released g.handled (listener.closed x g) := by
  refine ⟨listener_invariant.closed g x h hx, ?_, ?_⟩
  · cases x with
    | none => exact hx.elim id id
    | some d => rfl
  · cases x <;> rfl

/-- What holds of the listener: one task runs; the status says it is authorized only when its
current client is connected and has been told so; and no message has been handled twice. -/
structure ListenerSound (s : Supervision ListenerState ListenerPhase (Option ℕ)) : Prop where
  oneTask : ∀ i j, s.runs i = true → s.runs j = true → i = j
  authorized : ∀ now, (getStatus s now).authorized = true →
    ∃ c m, s.shared.client = some c ∧ s.shared.clients[c]? = some m ∧ m.connected = true ∧
      m.checked = true
  handled : ∀ k ∈ s.shared.handled, k ≤ 1

theorem ListenerSound.of_kept {s : Supervision ListenerState ListenerPhase (Option ℕ)}
    (h : s.Kept ListenerKept fun x g => g.client = x ∨ g.client = none) : ListenerSound s where
  oneTask _ _ hi hj := h.single.unique hi hj
  authorized now ha := by
    simp only [getStatus, ListenerState.isAuthorized, Bool.and_eq_true] at ha
    obtain ⟨hauth, hconn⟩ := ha
    obtain ⟨c, m, hc, hm, hchecked⟩ := h.active.authorized hauth
    refine ⟨c, m, hc, hm, ?_, hchecked⟩
    simpa [ListenerState.isConnected, hc, hm] using hconn
  handled := h.active.handled

/-- A listener before its first start. -/
def listenerAtStart (configured : Bool) : Supervision ListenerState ListenerPhase (Option ℕ) :=
  { shared := { configured } }

/-- **The listener in all interleavings**: what holds in every state; and once the last stop has
returned, no message is handled until the next start. -/
theorem listener_sound (configured : Bool) {moves : List (SupervisorMove Reply NetworkEvent)}
    (h : Guarded (Supervision.step listener)
      (Supervision.StartsIn listener fun g => g.authorized = false) (listenerAtStart configured)
        moves) :
    Always (Supervision.step listener) ListenerSound (listenerAtStart configured) moves ∧
      ∀ x, (run (Supervision.step listener) (listenerAtStart configured) moves).stops =
          [.closing x] →
        ∀ later, (∀ m ∈ later, m ≠ .start) →
          (run (Supervision.step listener) (listenerAtStart configured)
              (moves ++ .stopResumes 0 :: later)).shared.handled =
            (run (Supervision.step listener) (listenerAtStart configured) moves).shared.handled := by
  have hkept := listener_invariant.always (g := { configured })
    ⟨by simp, by simp, by simp, by simp, by simp⟩ h
  refine ⟨hkept.mono fun s hs => .of_kept hs, fun x hstops later hlater => ?_⟩
  have hlast := hkept.last
  rw [run_append, run_cons]
  change Supervision.Kept _ _ (run (Supervision.step listener) (listenerAtStart configured) moves)
    at hlast
  generalize run (Supervision.step listener) (listenerAtStart configured) moves = s at *
  have hmem : StopCall.closing x ∈ s.stops := by simp [hstops]
  have hactive : s.active = none := hlast.single.active_of_stops (List.ne_nil_of_mem hmem)
  have hafter : s.step listener (.stopResumes 0) =
      { s with shared := listener.closed x s.shared, stops := [] } := by
    simp [Supervision.step, Supervision.stopResumes, hstops]
  have hreturned := hlast.step listener_invariant (m := .stopResumes 0)
    (by simp [Supervision.StartsIn])
  rw [hafter] at hreturned ⊢
  have hidle := hlast.active
  rw [hactive] at hidle
  exact (Supervision.Quiet.run (v := listener) ⟨hreturned.single, hactive⟩ hlater
    (P := Released s.shared.handled) (fun _ h => h.stopping) (fun _ x h => h.closed x)
    (fun _ e h => h.outside e) (.of_closing hidle (hlast.closing x hmem))).2.handled

/-- The first lookup of the channel raises, and leaves its client connected; the second client
registers its handler, drops and reconnects between messages, and a start meanwhile is ignored. -/
def listenerMoves : List (SupervisorMove Reply NetworkEvent) :=
  [.start, .resume 0 {}, .resume 0 {}, .resume 0 {}, .resume 0 { raises := true }, .resume 0 {},
    .resume 0 {}, .resume 0 {}, .resume 0 { entityId := "77" }, .outside (.message true false 0),
    .start, .outside (.drops 1), .outside (.reconnects 1), .outside (.message true true 1), .stop]

theorem listener_sound_moves :
    (Always (Supervision.step listener) ListenerSound (listenerAtStart true) listenerMoves ∧
      ∀ x, (run (Supervision.step listener) (listenerAtStart true) listenerMoves).stops =
          [.closing x] →
        ∀ later, (∀ m ∈ later, m ≠ .start) →
          (run (Supervision.step listener) (listenerAtStart true)
              (listenerMoves ++ .stopResumes 0 :: later)).shared.handled =
            (run (Supervision.step listener) (listenerAtStart true) listenerMoves).shared.handled) ∧
      (run (Supervision.step listener) (listenerAtStart true) listenerMoves).stops =
        [.closing (some 1)] ∧
      (run (Supervision.step listener) (listenerAtStart true) listenerMoves).shared.handled =
        [1, 1] :=
  ⟨listener_sound true (by decide), by decide, by decide⟩

end AlphaOne.TelegramMtproto
