/-
The life of the VPN service: the callbacks of `MyVpnService`, each access to what it shares with the
tunnel thread a step of its own, and the native contexts and descriptors they use. The tunnel thread goes on
between any two of their steps. As long as the callbacks do not overlap, native code is never called with a
context that is gone, nothing is freed under the event loop, and a callback leaves behind what its state needs.
-/
import SunProxy.Pref.Store

namespace SunProxy.Vpn

open SunProxy.Kotlin SunProxy.Net SunProxy.Redirect SunProxy.Run

/-- The steps of the callbacks, in the order of the source. -/
inductive Op where
  /-- `if (jni_context != 0L)` in `onCreate` -/
  | checkContext
  | jniInit
  | loadHosts
  | loadRedirectRule
  /-- `if (vpn != null) return` in `start` -/
  | returnIfVpn
  | getBuilder
  | startVpn
  | startNative
  | jniStart
  | newThread (fd : Nat)
  | startThread
  /-- `vpn?.let` in `stop`, `if (vpn != null)` in `onDestroy` -/
  | ifVpn
  | stopNative
  | jniStop
  | join
  | clearThread
  | jniClear
  | closeVpn (fd : Nat)
  | clearVpn
  | jniDone
  | clearContext
  /-- The end of `onDestroy`. -/
  | destroyed
deriving DecidableEq, Repr

/-- Where the event loop is: between two events, in one, or in one that does not end. -/
inductive Loop where
  | idle
  | handling
  | hung
deriving DecidableEq, Repr

/-- Where the tunnel thread is: in the event loop it holds a context and the descriptor of the tunnel. -/
inductive Tunnel where
  | dead
  | created (fd : Nat)
  | started (fd : Nat)
  | running (context fd : Nat) (loop : Loop)
  /-- `jni_run` has returned. -/
  | returned
deriving DecidableEq, Repr

def Tunnel.isAlive : Tunnel → Bool
  | .dead | .created _ => false
  | .started _ | .running .. | .returned => true

/-- The event that the thread handles never ends. -/
def Tunnel.isHung : Tunnel → Bool
  | .running _ _ .hung => true
  | _ => false

/-- What goes wrong when native code or the fields of the service are used out of order. -/
inductive Misuse where
  /-- A call with a context that is null or has been freed. -/
  | deadContext
  /-- A context is cleared, freed or started again under its event loop. -/
  | underLoop
  /-- The tunnel is closed under the event loop, or read when it is closed. -/
  | closedTunnel
  /-- A second tunnel thread beside one that is alive. -/
  | secondThread
  /-- `hosts!!` or `redirectRule!!` -/
  | nullPointer
deriving DecidableEq, Repr

structure MyVpnService where
  /-- An exception has left a callback. -/
  died : Bool
  created : Bool
  jniContext : Nat
  /-- `tunnelThread` is not null. -/
  tunnelThread : Bool
  vpn : Option Nat
  hosts : Option (List HostsEntry)
  redirectRule : Option RedirectRule
  /-- The contexts that are allocated, each with its `stopping`. -/
  contexts : List (Nat × Bool)
  /-- The descriptors of tunnels that are open. -/
  tuns : List Nat
  tunnel : Tunnel

def MyVpnService.init : MyVpnService where
  died := false
  created := false
  jniContext := 0
  tunnelThread := false
  vpn := none
  hosts := none
  redirectRule := none
  contexts := []
  tuns := []
  tunnel := .dead

/-- The service and the threads of its callbacks. -/
structure System where
  service : MyVpnService
  /-- What is left of the callback on the main thread. -/
  main : List Op
  /-- What is left of `onRevoke`, which comes through the binder. -/
  binder : List Op

def System.init : System := ⟨.init, [], []⟩

/-- What is stored, and what the system answers: the DNS servers of the network, what the builder takes, the
descriptor of `establish`, null for one that fails too, and the address of `ng_calloc`. -/
structure Calls where
  preferences : Pref.Preferences
  dnsServers : List Str
  takes : Pref.Takes
  tun : Option Nat
  context : Nat

/-! ## Native calls -/

namespace MyVpnService

variable (s : MyVpnService)

def stoppingOf (context : Nat) : Except Misuse Bool :=
  match s.contexts.lookup context with
  | none => .error .deadContext
  | some stopping => .ok stopping

def setStopping (stopping : Bool) : MyVpnService :=
  { s with contexts := s.contexts.map fun p => if p.1 = s.jniContext then (p.1, stopping) else p }

def loopsOn (context : Nat) : Bool :=
  match s.tunnel with
  | .running c .. => c = context
  | _ => false

def reads (fd : Nat) : Bool :=
  match s.tunnel with
  | .running _ d _ => d = fd
  | _ => false

/-- A call with `jni_context` that may not come while its event loop runs. -/
def outsideLoop (next : MyVpnService) : Except Misuse MyVpnService := do
  let _ ← s.stoppingOf s.jniContext
  if s.loopsOn s.jniContext then .error .underLoop
  else return next

def jniStop : Except Misuse MyVpnService := do
  let _ ← s.stoppingOf s.jniContext
  return s.setStopping true

def jniStart : Except Misuse MyVpnService := s.outsideLoop (s.setStopping false)

def jniClear : Except Misuse MyVpnService := s.outsideLoop s

def jniDone : Except Misuse MyVpnService :=
  s.outsideLoop { s with contexts := s.contexts.filter fun p => p.1 ≠ s.jniContext }

def closeVpn (fd : Nat) : Except Misuse MyVpnService :=
  if s.reads fd then .error .closedTunnel
  else .ok { s with tuns := s.tuns.erase fd }

def newThread (fd : Nat) : Except Misuse MyVpnService :=
  if s.tunnel.isAlive then .error .secondThread
  else .ok { s with tunnel := .created fd, tunnelThread := true }

/-- An exception that nothing catches. -/
def throw : MyVpnService := { s with died := true }

end MyVpnService

/-! ## Callbacks -/

def onCreate : List Op := [.checkContext, .jniInit]

def start : List Op := [.loadHosts, .loadRedirectRule, .returnIfVpn, .getBuilder, .startVpn, .startNative]

def stop : List Op := [.ifVpn]

def onDestroy : List Op := [.ifVpn, .jniDone, .clearContext, .destroyed]

/-- The first step of what is left of a callback, and what is left after it. -/
def exec (t : CharTables) (c : Calls) (s : MyVpnService) : List Op → Except Misuse (List Op × MyVpnService)
  | [] => .ok ([], s)
  | .checkContext :: rest =>
    if s.jniContext ≠ 0 then .ok (.jniStop :: .jniDone :: .clearContext :: rest, s)
    else .ok (rest, s)
  | .jniInit :: rest => .ok (rest, { s with jniContext := c.context, contexts := (c.context, false) :: s.contexts })
  | .loadHosts :: rest =>
    match Pref.loadHosts (c.preferences.hosts.getD []) with
    | .error _ => .ok ([], s.throw)
    | .ok hosts => .ok (rest, { s with hosts := some hosts })
  | .loadRedirectRule :: rest =>
    match compile t (c.preferences.redirectRule.getD []) with
    | .error _ => .ok ([], s.throw)
    | .ok rule => .ok (rest, { s with redirectRule := some rule })
  | .returnIfVpn :: rest => .ok (if s.vpn.isSome then [] else rest, s)
  | .getBuilder :: rest =>
    match Pref.getBuilder t c.takes c.dnsServers c.preferences with
    | .error _ => .ok ([], s.throw)
    | .ok _ => .ok (rest, s)
  | .startVpn :: rest =>
    match c.tun with
    | none => .ok ([], s.throw)
    | some fd => .ok (rest, { s with vpn := some fd, tuns := fd :: s.tuns })
  | .startNative :: rest =>
    match s.vpn with
    | none => .ok ([], s.throw) -- `vpn!!`
    | some fd => .ok (if s.tunnelThread then rest else .jniStart :: .newThread fd :: .startThread :: rest, s)
  | .jniStart :: rest => do return (rest, ← s.jniStart)
  | .newThread fd :: rest => do return (rest, ← s.newThread fd)
  | .startThread :: rest =>
    match s.tunnelThread, s.tunnel with
    | true, .created fd => .ok (rest, { s with tunnel := .started fd })
    | _, _ => .ok ([], s.throw) -- `tunnelThread!!`
  | .ifVpn :: rest =>
    match s.vpn with
    | none => .ok (rest, s)
    | some fd => .ok (.stopNative :: .closeVpn fd :: .clearVpn :: rest, s)
  | .stopNative :: rest =>
    .ok (if s.tunnelThread then .jniStop :: .join :: .clearThread :: .jniClear :: rest else rest, s)
  | .jniStop :: rest => do return (rest, ← s.jniStop)
  | .join :: rest => .ok (if s.tunnelThread && s.tunnel.isAlive then .join :: rest else rest, s)
  | .clearThread :: rest => .ok (rest, { s with tunnelThread := false })
  | .jniClear :: rest => do return (rest, ← s.jniClear)
  | .closeVpn fd :: rest => do return (rest, ← s.closeVpn fd)
  | .clearVpn :: rest => .ok (rest, { s with vpn := none })
  | .jniDone :: rest => do return (rest, ← s.jniDone)
  | .clearContext :: rest => .ok (rest, { s with jniContext := 0 })
  | .destroyed :: rest => .ok (rest, { s with created := false })

/-! ## The tunnel thread -/

inductive TunnelStep where
  /-- `jni_run` is called with the context and the descriptor of this moment. -/
  | run
  /-- An event is there to be handled. -/
  | handle
  | addressFromHosts
  | redirect
  /-- The event never ends, as with a SYN that has an option of length zero. -/
  | hang
  /-- The event is handled. -/
  | handled
  /-- `handle_events` returns: after an error, or because it is told to stop. -/
  | exit (error : Bool)
  /-- `tunnelThread = null`, the last thing the thread does. -/
  | clearThread
deriving DecidableEq, Repr

/-- A step of the tunnel thread, if it is there to be taken. -/
def MyVpnService.tunnelStep (s : MyVpnService) : TunnelStep → Except Misuse MyVpnService
  | .run =>
    match s.tunnel with
    | .started fd => do
      if fd ∉ s.tuns then .error .closedTunnel
      let _ ← s.stoppingOf s.jniContext
      return { s with tunnel := .running s.jniContext fd .idle }
    | _ => .ok s
  | .handle =>
    match s.tunnel with
    | .running context fd .idle => .ok { s with tunnel := .running context fd .handling }
    | _ => .ok s
  | .addressFromHosts =>
    match s.tunnel with
    | .running _ _ .handling => if s.hosts.isNone then .error .nullPointer else .ok s
    | _ => .ok s
  | .redirect =>
    match s.tunnel with
    | .running _ _ .handling => if s.redirectRule.isNone then .error .nullPointer else .ok s
    | _ => .ok s
  | .hang =>
    match s.tunnel with
    | .running context fd .handling => .ok { s with tunnel := .running context fd .hung }
    | _ => .ok s
  | .handled =>
    match s.tunnel with
    | .running context fd .handling => .ok { s with tunnel := .running context fd .idle }
    | _ => .ok s
  | .exit error =>
    match s.tunnel with
    | .running context _ .idle => do
      let stopping ← s.stoppingOf context
      if error || stopping then return { s with tunnel := .returned }
      else return s
    | _ => .ok s
  | .clearThread =>
    match s.tunnel with
    | .returned => .ok { s with tunnel := .dead, tunnelThread := false }
    | _ => .ok s

/-! ## Runs -/

/-- The intents of `onStartCommand`. -/
inductive Intent where
  | start | stop | other
deriving DecidableEq, Repr

inductive Event where
  | onCreate
  | onStartCommand (intent : Intent)
  | onDestroy
  | onRevoke
  /-- The main thread takes its next step. -/
  | main (calls : Calls)
  /-- The thread of the binder takes its next step. -/
  | binder (calls : Calls)
  | tunnel (step : TunnelStep)

/-- A new service is there from the moment on that its `onCreate` begins. -/
def MyVpnService.fresh (s : MyVpnService) : MyVpnService :=
  { s with created := true, tunnelThread := false, vpn := none, hosts := none, redirectRule := none }

/-- The main thread begins a callback when it is done with the one before. -/
def System.begin (s : System) (service : MyVpnService) (callback : List Op) : System :=
  if s.main.isEmpty then { s with service, main := callback } else s

def System.step (t : CharTables) (s : System) (e : Event) : Except Misuse System :=
  if s.service.died then .ok s
  else match e with
    | .onCreate => .ok (s.begin s.service.fresh onCreate)
    | .onStartCommand .start => .ok (s.begin s.service start)
    | .onStartCommand .stop => .ok (s.begin s.service stop)
    | .onStartCommand .other => .ok s
    | .onDestroy => .ok (s.begin s.service onDestroy)
    | .onRevoke => .ok (if s.binder.isEmpty then { s with binder := stop } else s)
    | .main c => do
      let (main, service) ← exec t c s.service s.main
      return { s with service, main }
    | .binder c => do
      let (binder, service) ← exec t c s.service s.binder
      return { s with service, binder }
    | .tunnel a => do return { s with service := ← s.service.tunnelStep a }

/-- What the system keeps to: no callback begins while another is under way, `onCreate` comes first and
`onDestroy` last, and what is allocated or opened was not in use. -/
def System.Allows (s : System) : Event → Prop
  | .onCreate => s.main = [] ∧ s.binder = [] ∧ s.service.created = false
  | .onStartCommand _ | .onDestroy | .onRevoke => s.main = [] ∧ s.binder = [] ∧ s.service.created = true
  | .main c | .binder c => c.context ≠ 0 ∧ c.context ∉ s.service.contexts.map (·.1) ∧ ∀ fd ∈ c.tun, fd ∉ s.service.tuns
  | .tunnel _ => True

instance (s : System) : (e : Event) → Decidable (s.Allows e)
  | .onCreate => inferInstanceAs (Decidable (_ ∧ _ ∧ _))
  | .onStartCommand _ | .onDestroy | .onRevoke => inferInstanceAs (Decidable (_ ∧ _ ∧ _))
  | .main c | .binder c =>
    have : Decidable (∀ fd ∈ c.tun, fd ∉ s.service.tuns) :=
      decidable_of_iff (c.tun.all fun fd => decide (fd ∉ s.service.tuns)) (by
      cases c.tun <;> simp)
    inferInstanceAs (Decidable (_ ∧ _ ∧ _))
  | .tunnel _ => isTrue trivial

/-! ## What a service is for -/

/-- The service as its callbacks leave it. -/
inductive Life where
  | absent | ready | running
deriving DecidableEq, Repr

def Life.next : Life → Event → Life
  | _, .onCreate => .ready
  | _, .onStartCommand .start => .running
  | _, .onStartCommand .stop | _, .onRevoke => .ready
  | _, .onDestroy => .absent
  | life, _ => life

/-- No tunnel, and no thread for it. -/
structure Off (s : MyVpnService) : Prop where
  vpn : s.vpn = none
  tuns : s.tuns = []
  thread : s.tunnelThread = false
  tunnel : s.tunnel = .dead

structure Loaded (s : MyVpnService) : Prop where
  hosts : s.hosts.isSome
  rule : s.redirectRule.isSome

/-- The thread of a tunnel: the field is null once it has ended. -/
inductive Threaded (fd : Nat) (s : MyVpnService) : Prop where
  | dead (thread : s.tunnelThread = false) (tunnel : s.tunnel = .dead)
  | started (thread : s.tunnelThread = true) (tunnel : s.tunnel = .started fd)
  | running {loop : Loop} (thread : s.tunnelThread = true) (tunnel : s.tunnel = .running s.jniContext fd loop)
  | returned (thread : s.tunnelThread = true) (tunnel : s.tunnel = .returned)

/-- The one tunnel that is open, with a thread that may have ended. -/
structure Up (fd : Nat) (s : MyVpnService) : Prop where
  vpn : s.vpn = some fd
  tuns : s.tuns = [fd]
  loaded : Loaded s
  threaded : Threaded fd s

/-- The one context that is allocated. -/
structure Has (s : MyVpnService) : Prop where
  alive : s.died = false
  created : s.created = true
  context : s.jniContext ≠ 0
  contexts : ∃ stopping, s.contexts = [(s.jniContext, stopping)]

/-- Nothing is allocated. -/
structure Bare (s : MyVpnService) : Prop where
  alive : s.died = false
  context : s.jniContext = 0
  contexts : s.contexts = []
  off : Off s

end SunProxy.Vpn
