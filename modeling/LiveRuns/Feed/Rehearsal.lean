import LiveRuns.Feed.Step

/-!
A feed on a virtual clock.

A rehearsal runs a feed against a script: the n-th snapshot that is fetched has a given result
after a given time, and the n-th channel that is opened sends given signals at once.  Nothing
happens but by an action of the script, and time passes only by `advance`.

While the feed has messages it takes them, commands first, then snapshots and timers, then
signals.  When it has none, a snapshot that it asked for is begun, and the timers that are due
ring.  So a snapshot whose session ends before the feed is idle is never begun.
-/

namespace LiveRuns.Feed

/-- What one snapshot brings, and after how many milliseconds. -/
structure Scripted where
  delay : Nat := 0
  result : Except Failure (List Run) := .ok []

structure Timer where
  due : Nat
  token : Token
  message : Message

structure Rehearsal where
  feed : Feed
  /-- The results of the snapshots that have not been begun. -/
  snapshots : List Scripted
  /-- The signals of the channels that have not been opened. -/
  greetings : List (List Channel.Signal)
  now : Nat := 0
  owned : Bool := true
  commands : List Message := []
  wakes : List Message := []
  signals : List Message := []
  /-- Snapshots that were asked for and not begun. -/
  asked : List (Token × RunQuery) := []
  timers : List Timer := []
  /-- The queries of all snapshots begun, last first. -/
  queries : List RunQuery := []
  /-- All channels opened, last first. -/
  channels : List (Token × StreamParams) := []
  closes : Nat := 0
  view : View := {}
  /-- The views published since the last look, last first. -/
  published : List View := []

inductive Action where
  /-- Do nothing. -/
  | settle
  /-- Send a signal on a channel, given by its number or the last one opened. -/
  | send (channel : Option Nat) (signal : Channel.Signal)
  | advance (milliseconds : Nat)
  | setParams (selection : Selection)
  | dispose
  | drop

namespace Rehearsal

def perform (r : Rehearsal) : Effect → Rehearsal
  | .fetch token query => { r with asked := r.asked ++ [(token, query)] }
  | .abort token =>
    { r with
      asked := r.asked.filter (·.1 ≠ token)
      timers := r.timers.filter (·.token ≠ token) }
  | .openChannel token params =>
    { r with
      channels := (token, params) :: r.channels
      signals := r.signals ++ (r.greetings.headD []).map (.signal token)
      greetings := r.greetings.tail }
  | .closeChannel _ => { r with closes := r.closes + 1 }
  | .schedule token delay =>
    { r with timers := r.timers ++ [⟨r.now + delay, token, .retryDue token⟩] }
  | .cancel token => { r with timers := r.timers.filter (·.token ≠ token) }
  | .publish view => { r with view, published := view :: r.published }

def deliver (r : Rehearsal) (message : Message) : Rehearsal :=
  let (feed, effects) := r.feed.handle message
  effects.foldl perform { r with feed }

def begin (r : Rehearsal) (token : Token) (query : RunQuery) : Rehearsal :=
  let scripted := r.snapshots.headD {}
  let message := Message.snapshot token scripted.result
  let r := { r with snapshots := r.snapshots.tail, queries := query :: r.queries }
  if scripted.delay = 0 then { r with wakes := r.wakes ++ [message] }
  else { r with timers := r.timers ++ [⟨r.now + scripted.delay, token, message⟩] }

/-- The next thing that happens without time passing. -/
def next? (r : Rehearsal) : Option Rehearsal :=
  match r.commands, r.wakes, r.signals, r.asked with
  | message :: commands, _, _, _ => some ({ r with commands }.deliver message)
  | [], message :: wakes, _, _ => some ({ r with wakes }.deliver message)
  | [], [], message :: signals, _ => some ({ r with signals }.deliver message)
  | [], [], [], (token, query) :: asked => some ({ r with asked }.begin token query)
  | [], [], [], [] =>
    let ringing := r.timers.filter (·.due ≤ r.now)
    if ringing.isEmpty then none
    else
      some
        { r with
          timers := r.timers.filter (r.now < ·.due)
          wakes := ringing.map Timer.message }

/-- No more things than this can happen: a signal can fail its channel, and the timer, the session
and the snapshot that follow are six more steps. -/
def bound (r : Rehearsal) : Nat :=
  8 * (2 + r.commands.length + r.wakes.length + r.signals.length + r.asked.length +
    r.timers.length + r.greetings.flatten.length)

def settleWithin : Nat → Rehearsal → Rehearsal
  | 0, r => r
  | fuel + 1, r =>
    match r.next? with
    | some r => settleWithin fuel r
    | none => r

def settle (r : Rehearsal) : Rehearsal := settleWithin r.bound r

/-- The first time before a given one at which a timer is due. -/
def nextDue? (r : Rehearsal) (target : Nat) : Option Nat :=
  ((r.timers.map Timer.due).filter (· < target)).min?

/-- Let time pass up to a given time, stopping wherever a timer is due before it. -/
def passWithin : Nat → Rehearsal → Nat → Rehearsal
  | 0, r, target => { r with now := target }
  | fuel + 1, r, target =>
    match r.nextDue? target with
    | some due => passWithin fuel { r with now := due }.settle target
    | none => { r with now := target }

/-- Take an action.  The answer tells of a signal whether anybody still listens. -/
def act (r : Rehearsal) : Action → Rehearsal × Option Bool
  | .settle => (r, none)
  | .send channel signal =>
    let opened := r.channels.reverse
    let number := channel.getD (opened.length - 1)
    match opened[number]? with
    | none => (r, none)
    | some (token, _) =>
      if r.feed.phase = .closed then (r, some false)
      else ({ r with signals := r.signals ++ [.signal token signal] }, some true)
  | .advance milliseconds =>
    let r := r.settle
    (passWithin r.bound r (r.now + milliseconds), none)
  | .setParams selection =>
    if r.owned then ({ r with commands := r.commands ++ [Message.setParams selection] }, none)
    else (r, none)
  | .dispose =>
    if r.owned then ({ r with owned := false, commands := r.commands ++ [Message.dispose] }.settle, none)
    else (r, none)
  | .drop =>
    if r.owned then ({ r with owned := false, commands := r.commands ++ [Message.dispose] }, none)
    else (r, none)

/-- Take actions one after the other, without letting the feed run between them, and then let it
run. -/
def step (r : Rehearsal) (actions : List Action) : Rehearsal × List (Option Bool) :=
  let (r, answers) := actions.foldl
    (fun (r, answers) action =>
      let (r, answer) := r.act action
      (r, answer :: answers)) (r, [])
  (r.settle, answers.reverse)

def ofScript (options : Options) (selection : Selection) (snapshots : List Scripted)
    (greetings : List (List Channel.Signal)) : Rehearsal :=
  { feed := Feed.new options selection, snapshots, greetings }

def start (r : Rehearsal) : Rehearsal :=
  let (feed, effects) := r.feed.startSession
  (effects.foldl perform { r with feed }).settle

def looked (r : Rehearsal) : Rehearsal := { r with published := [] }

end Rehearsal

end LiveRuns.Feed
