import OtaMqtt.Ota.Deliveries
import OtaMqtt.Ota.Escapes
import OtaMqtt.Ota.Streaming

/-! Whether `update_buffer_size` of http/http_session.cc gets to its last line, `regist_event (READ)`,
behind a complete request: an exception may leave `handle_request`, and a response may never come back.

No command throws behind a response, and none responds before it may throw. -/

namespace OtaMqtt.Ota.Serving

open OtaMqtt.Lib OtaMqtt.Lib.Execution OtaMqtt.Lib.Trace OtaMqtt.Lib.Utf8
open OtaMqtt.Ota OtaMqtt.Ota.Dispatcher OtaMqtt.Ota.Routing
open OtaMqtt.Ota.Deliveries OtaMqtt.Ota.Escapes
open OtaMqtt.Ota.Replies (Printable)
open OtaMqtt.Ota.Streaming (Reading toSize)
open OtaMqtt.Http
open OtaMqtt.Http.Delivery (Connection CanReturn Spared)
open OtaMqtt.Http.Buffer (HttpBuffer)
open OtaMqtt.Http.Parser (HttpCode)

def streams (env : Environment) (manager : OTAManager) : Route → Bool
  | .submitted deviceType _ command detail =>
      command = "file_download" && (manager.deviceTypeNums.lookup deviceType).isSome &&
        (env.openFile (OTAManager.filePath env deviceType (detail "name") (detail "version"))).isSome
  | _ => false

/-- `entered` is the call of `handle_request`, `escaped` an exception that leaves it, and `reached` the
call of `regist_event (READ)`. -/
inductive State (bufferSize : Nat) where
  | entered (connection : Connection)
  | escaped
  | responding (text : String) (call : Delivery.State)
  | streaming (loop : Streaming.State bufferSize)
  | reached

inductive Label (bufferSize : Nat) where
  | dispatch
  | deliver (label : Delivery.Label)
  | read (result : Reading bufferSize)

def handed : List Effect → Option String
  | [] => none
  | .respond _ text :: _ => some text
  | .register _ _ :: effects => handed effects

section
variable {bufferSize : Nat} (junk : List Char) (env : Environment) (manager : OTAManager)
  (connectId : Int) (cmd uri body : String)

/-- Behind the answer, with `junk` in the buffer for a file. -/
def resume (connection : Connection) : State bufferSize :=
  if streams env manager (route env.parse cmd uri body) then .streaming (Streaming.start junk connection)
  else .reached

def settle (text : String) (call : Delivery.State) : State bufferSize :=
  match call.stage with
  | .returned _ => resume junk env manager cmd uri body call.connection
  | _ => .responding text call

def proceed (loop : Streaming.State bufferSize) : State bufferSize :=
  match loop.stage with
  | .stopped => .reached
  | _ => .streaming loop

def State.answer (connection : Connection) (outcome : Outcome) : State bufferSize :=
  if outcome.returned = none then .escaped
  else match handed outcome.effects with
    | none => .reached
    | some text => settle junk env manager cmd uri body text (Delivery.enter connection)

def step : State bufferSize → Label bufferSize → Option (State bufferSize)
  | .entered connection, .dispatch =>
      (handleRequest env manager connectId cmd uri body).toOption.map
        (State.answer junk env manager cmd uri body connection)
  | .responding text call, .deliver label =>
      (Delivery.step .toReady (memory text) text.length call label).map
        (settle junk env manager cmd uri body text)
  | .streaming loop, .deliver label => (Streaming.step loop (.deliver label)).map .streaming
  | .streaming loop, .read result => (Streaming.step loop (.read result)).map proceed
  | _, _ => none

/-- `regist_event (READ)` can still be reached. -/
def Reaches (state : State bufferSize) : Prop :=
  ∃ labels, run (step junk env manager connectId cmd uri body) state labels = some .reached

/-- No result but a complete request leads into `handle_request`. -/
def arrive (code : HttpCode) (connection : Connection) : State bufferSize :=
  if code = .getRequest then .entered connection else .reached

/-- No exception is met, and the call with the answer can come back. -/
def Servable (connection : Connection) : Prop :=
  Orderly env.parse manager cmd uri body ∧
    ∀ length, answerLength env manager (route env.parse cmd uri body) = some length →
      CanReturn (Delivery.enter connection) length

/-- The sender leaves room for a text or a chunk that waits, and there is room for a chunk, or for as
many bytes as a failed `read` makes of it, when it is handed over. -/
def Unhindered : State bufferSize → Label bufferSize → Prop
  | .responding text call, .deliver label => Spared call text.length label
  | .streaming loop, .deliver label => ∀ call stage, loop.stage = .responding call stage →
      Spared ⟨stage, loop.connection⟩ call.size label
  | .streaming loop, .read result => loop.stage = .reading → result.count ≠ 0 →
      CanReturn (Delivery.enter loop.connection) (toSize result.count)
  | _, _ => True

end

section
variable {bufferSize : Nat} {junk : List Char} {env : Environment} {manager : OTAManager}
  {connectId : Int} {cmd uri body : String} {state next : State bufferSize}

/-- Nothing behind the state throws, and the call that runs can come back. -/
def CanGo (env : Environment) (manager : OTAManager) (cmd uri body : String) :
    State bufferSize → Prop
  | .entered connection => Servable env manager cmd uri body connection
  | .escaped => False
  | .responding text call => CanReturn call text.length
  | .streaming loop => ∀ call stage, loop.stage = .responding call stage →
      CanReturn ⟨stage, loop.connection⟩ call.size
  | .reached => True

/-- A call that has come back is left at once, and so is the loop of a file that has ended. -/
def Inside : State bufferSize → Prop
  | .entered connection => RingStates.InRange connection.ring
  | .responding _ call => RingStates.InRange call.connection.ring ∧
      ∀ queued, call.stage ≠ .returned queued
  | .streaming loop => RingStates.InRange loop.connection.ring ∧ loop.stage ≠ .stopped ∧
      ∀ call stage, loop.stage = .responding call stage → ∀ queued, stage ≠ .returned queued
  | _ => True

theorem resume_inside (connection : Connection) (inside : RingStates.InRange connection.ring) :
    Inside (resume junk env manager cmd uri body connection : State bufferSize) := by
  rw [resume]
  split
  · exact ⟨inside, nofun, nofun⟩
  · trivial

theorem resume_canGo (connection : Connection) :
    CanGo env manager cmd uri body (resume junk env manager cmd uri body connection : State bufferSize) := by
  rw [resume]
  split
  · intro call stage responding
    cases responding
  · trivial

theorem settle_inside (text : String) (call : Delivery.State)
    (inside : RingStates.InRange call.connection.ring) :
    Inside (settle junk env manager cmd uri body text call : State bufferSize) := by
  rw [settle]
  split
  · exact resume_inside call.connection inside
  · rename_i running
    exact ⟨inside, running⟩

theorem settle_canGo (text : String) (call : Delivery.State) :
    CanGo env manager cmd uri body (settle junk env manager cmd uri body text call : State bufferSize) ↔
      CanReturn call text.length := by
  rw [settle]
  split
  · rename_i stage
    refine iff_of_true (resume_canGo call.connection) ?_
    rw [CanReturn, stage]
    trivial
  · exact Iff.rfl

theorem handed_none {effects : List Effect} (quiet : ∀ fd text, .respond fd text ∉ effects) :
    handed effects = none := by
  induction effects with
  | nil => rfl
  | cons effect effects ih =>
      cases effect with
      | respond fd text => exact absurd List.mem_cons_self (quiet fd text)
      | register topic holder =>
          exact ih fun fd text member => quiet fd text (List.mem_cons_of_mem _ member)

theorem answer_inside (connection : Connection) (outcome : Outcome)
    (inside : RingStates.InRange connection.ring) :
    Inside (State.answer junk env manager cmd uri body connection outcome : State bufferSize) := by
  rw [State.answer]
  split
  · trivial
  · cases handed outcome.effects with
    | none => trivial
    | some text =>
        apply settle_inside
        rw [Delivery.enter]
        exact inside

theorem answer_behind (connection other : Connection) (outcome : Outcome) :
    (State.answer junk env manager cmd uri body connection outcome : State bufferSize) ≠ .entered other := by
  rw [State.answer]
  split
  · simp
  · cases handed outcome.effects with
    | none => simp
    | some text =>
        dsimp only
        rw [settle]
        split
        · rw [resume]
          split
          · simp
          · simp
        · simp

theorem answer_canGo (connection : Connection) {outcome : Outcome} {length : Option Nat}
    (hands : Hands outcome connectId length) :
    CanGo env manager cmd uri body
        (State.answer junk env manager cmd uri body connection outcome : State bufferSize) ↔
      outcome.returned ≠ none ∧
        ∀ size, length = some size → CanReturn (Delivery.enter connection) size := by
  rw [State.answer]
  split
  · rename_i escaped
    exact iff_of_false id fun both => both.1 escaped
  · rename_i returned
    cases length with
    | none =>
        rw [handed_none hands]
        exact iff_of_true trivial ⟨returned, nofun⟩
    | some size =>
        rcases hands with ⟨escaped, -⟩ | ⟨text, -, only, sized⟩
        · exact absurd escaped returned
        · rw [only]
          refine (settle_canGo text (Delivery.enter connection)).trans ?_
          rw [sized]
          constructor
          · intro can
            refine ⟨returned, fun other same => ?_⟩
            cases same
            exact can
          · intro both
            exact both.2 size rfl

def Serves (env : Environment) (manager : OTAManager) (connectId : Int) (cmd uri body : String) : Prop :=
  ∃ outcome, handleRequest env manager connectId cmd uri body = .ok outcome ∧
    Hands outcome connectId (answerLength env manager (route env.parse cmd uri body)) ∧
    (outcome.returned ≠ none ↔ Orderly env.parse manager cmd uri body)

theorem dispatch_spec (serves : Serves env manager connectId cmd uri body) (connection : Connection) :
    ∃ next, step junk env manager connectId cmd uri body (.entered connection : State bufferSize)
        .dispatch = some next ∧ (∀ other, next ≠ .entered other) ∧
      (RingStates.InRange connection.ring → Inside next) ∧
      (CanGo env manager cmd uri body next ↔ Servable env manager cmd uri body connection) := by
  obtain ⟨outcome, done, hands, orderly⟩ := serves
  refine ⟨State.answer junk env manager cmd uri body connection outcome, ?_,
    fun other => answer_behind connection other outcome, answer_inside connection outcome, ?_⟩
  · rw [step, done]
    rfl
  · rw [answer_canGo connection hands, orderly, Servable]

theorem called_spec {call reached : Delivery.State} {waiting : Session.Waiting} {data : Nat → UInt8}
    {size : Nat} (inside : RingStates.InRange call.connection.ring)
    (running : ∀ queued, call.stage ≠ .returned queued) (label : Delivery.Label)
    (ran : Delivery.step waiting data size call label = some reached) :
    RingStates.InRange reached.connection.ring ∧ (CanReturn reached size → CanReturn call size) ∧
      (CanReturn call size → (CanReturn reached size ↔ Spared call size label)) :=
  ⟨Delivery.step_inside label inside ran, Delivery.canReturn_back inside label ran,
    fun can => Delivery.canReturn_iff_spared inside label running can ran⟩

def Keeps (env : Environment) (manager : OTAManager) (cmd uri body : String) (state : State bufferSize)
    (label : Label bufferSize) (next : State bufferSize) : Prop :=
  Inside next ∧ (CanGo env manager cmd uri body next → CanGo env manager cmd uri body state) ∧
    (CanGo env manager cmd uri body state →
      (CanGo env manager cmd uri body next ↔ Unhindered state label))

theorem responding_spec {text : String} {call : Delivery.State} (label : Delivery.Label)
    (inside : Inside (.responding text call : State bufferSize))
    (taken : step junk env manager connectId cmd uri body (.responding text call) (.deliver label) =
      some next) :
    Keeps env manager cmd uri body (.responding text call) (.deliver label) next := by
  rw [step] at taken
  obtain ⟨reached, ran, rfl⟩ := Option.map_eq_some_iff.mp taken
  obtain ⟨kept, back, spared⟩ := called_spec inside.1 inside.2 label ran
  rw [Keeps, settle_canGo]
  exact ⟨settle_inside text reached kept, back, spared⟩

theorem loop_canGo (loop : Streaming.State bufferSize) (call : Streaming.Call) (stage : Delivery.Stage)
    (set : loop.stage = Streaming.settle call stage) :
    CanGo env manager cmd uri body (.streaming loop) ↔
      CanReturn ⟨stage, loop.connection⟩ call.size := by
  rw [CanGo, set]
  cases stage with
  | waiting =>
      constructor
      · intro can
        exact can call .waiting rfl
      · intro can other stage' responding
        cases responding
        exact can
  | yielded awake =>
      constructor
      · intro can
        exact can call (.yielded awake) rfl
      · intro can other stage' responding
        cases responding
        exact can
  | returned queued => exact iff_of_true nofun trivial

theorem loop_inside (loop : Streaming.State bufferSize) (call : Streaming.Call) (stage : Delivery.Stage)
    (inside : RingStates.InRange loop.connection.ring) (set : loop.stage = Streaming.settle call stage) :
    Inside (.streaming loop : State bufferSize) := by
  refine ⟨inside, ?_, ?_⟩
  · rw [set]
    exact Streaming.settle_running call stage
  · intro other stage' responding
    rw [set] at responding
    obtain ⟨rfl, rfl, running⟩ := Streaming.settle_responding responding
    exact running

theorem streaming_spec {loop : Streaming.State bufferSize} (label : Delivery.Label)
    (inside : Inside (.streaming loop : State bufferSize))
    (taken : step junk env manager connectId cmd uri body (.streaming loop) (.deliver label) =
      some next) :
    Keeps env manager cmd uri body (.streaming loop) (.deliver label) next := by
  obtain ⟨ring, going, running⟩ := inside
  rw [step, Streaming.step] at taken
  cases stage : loop.stage with
  | stopped => exact absurd stage going
  | reading =>
      rw [stage] at taken
      obtain ⟨moved, sent, rfl⟩ := Option.map_eq_some_iff.mp taken
      obtain ⟨reached, ran, rfl⟩ := Option.map_eq_some_iff.mp sent
      have idle : ∀ call inner, loop.stage ≠ .responding call inner := by simp [stage]
      refine ⟨⟨Delivery.step_inside label ring ran, ?_, ?_⟩, fun _ => ?_, fun _ => ?_⟩
      · intro stopped
        cases stopped
      · intro call inner responding
        cases responding
      · intro call inner responding
        exact absurd responding (idle call inner)
      · refine iff_of_true ?_ fun call inner responding => ?_
        · intro call inner responding
          cases responding
        · exact absurd responding (idle call inner)
  | responding call inner =>
      rw [stage] at taken
      obtain ⟨moved, sent, rfl⟩ := Option.map_eq_some_iff.mp taken
      obtain ⟨reached, ran, rfl⟩ := Option.map_eq_some_iff.mp sent
      obtain ⟨kept, back, spared⟩ := called_spec ring (running call inner stage) label ran
      have before : CanGo env manager cmd uri body (.streaming loop) ↔
          CanReturn ⟨inner, loop.connection⟩ call.size := by
        constructor
        · intro can
          exact can call inner stage
        · intro can other stage' responding
          rw [stage] at responding
          cases responding
          exact can
      have guard : Unhindered (.streaming loop) (.deliver label) ↔
          Spared ⟨inner, loop.connection⟩ call.size label := by
        constructor
        · intro unhindered
          exact unhindered call inner stage
        · intro spared other stage' responding
          rw [stage] at responding
          cases responding
          exact spared
      rw [Keeps, before, guard, loop_canGo _ call reached.stage rfl]
      exact ⟨loop_inside _ call reached.stage kept rfl, back, spared⟩

theorem read_spec {loop : Streaming.State bufferSize} (result : Reading bufferSize)
    (inside : Inside (.streaming loop : State bufferSize))
    (taken : step junk env manager connectId cmd uri body (.streaming loop) (.read result) = some next) :
    Keeps env manager cmd uri body (.streaming loop) (.read result) next := by
  obtain ⟨ring, -, -⟩ := inside
  rw [step, Streaming.step] at taken
  cases stage : loop.stage with
  | stopped =>
      rw [stage] at taken
      cases taken
  | responding call inner =>
      rw [stage] at taken
      cases taken
  | reading =>
      rw [stage] at taken
      cases taken
      have before : CanGo env manager cmd uri body (.streaming loop) := by
        intro call inner responding
        rw [stage] at responding
        cases responding
      refine (and_congr_right fun _ => and_iff_right fun _ => before).mpr ?_
      by_cases ended : result.count = 0
      · have done : proceed (loop.take result) = .reached := by rw [proceed, Streaming.State.take, if_pos ended]
        rw [done]
        exact ⟨trivial, fun _ => iff_of_true trivial fun _ moves => absurd ended moves⟩
      · have set : (loop.take result).stage = Streaming.settle
            ⟨result.fill loop.buffer, toSize result.count⟩ (Delivery.enter loop.connection).stage := by
          rw [Streaming.State.take, if_neg ended]
        have same : (loop.take result).connection = loop.connection := by
          rw [Streaming.State.take, if_neg ended]
        have goes : proceed (loop.take result) = .streaming (loop.take result) := by
          rw [proceed]
          split
          · rename_i stopped
            rw [set] at stopped
            exact absurd stopped (Streaming.settle_running _ _)
          · rfl
        rw [goes, loop_canGo _ _ _ set, same]
        refine ⟨loop_inside _ _ _ (by rw [same]; exact ring) set, fun _ => ?_⟩
        constructor
        · intro can _ _
          exact can
        · intro unhindered
          exact unhindered stage ended

theorem step_spec (serves : Serves env manager connectId cmd uri body) (label : Label bufferSize)
    (inside : Inside state)
    (taken : step junk env manager connectId cmd uri body state label = some next) :
    Keeps env manager cmd uri body state label next := by
  cases state with
  | entered connection =>
      cases label with
      | dispatch =>
          obtain ⟨answered, ran, -, kept, servable⟩ := @dispatch_spec _ junk _ _ _ _ _ _ serves connection
          rw [taken] at ran
          cases ran
          exact ⟨kept inside, servable.mp, fun able => iff_of_true (servable.mpr able) trivial⟩
      | deliver label => cases taken
      | read result => cases taken
  | escaped => cases label <;> cases taken
  | responding text call =>
      cases label with
      | dispatch => cases taken
      | deliver label => exact responding_spec label inside taken
      | read result => cases taken
  | streaming loop =>
      cases label with
      | dispatch => cases taken
      | deliver label => exact streaming_spec label inside taken
      | read result => exact read_spec result inside taken
  | reached => cases label <;> cases taken

theorem Reaches.before (label : Label bufferSize)
    (taken : step junk env manager connectId cmd uri body state label = some next)
    (reaches : Reaches junk env manager connectId cmd uri body next) :
    Reaches junk env manager connectId cmd uri body state := by
  obtain ⟨labels, ran⟩ := reaches
  exact ⟨label :: labels, by rw [run_cons, taken, Option.bind_some, ran]⟩

theorem reading_reaches {loop : Streaming.State bufferSize} (reading : loop.stage = .reading) :
    Reaches junk env manager connectId cmd uri body (.streaming loop) := by
  have taken : step junk env manager connectId cmd uri body (.streaming loop)
      (.read (.bytes [] (Nat.zero_le bufferSize))) = some .reached := by
    rw [step, Streaming.step, reading]
    rfl
  exact Reaches.before _ taken ⟨[], rfl⟩

theorem resume_reaches (connection : Connection) :
    Reaches junk env manager connectId cmd uri body
      (resume junk env manager cmd uri body connection : State bufferSize) := by
  rw [resume]
  split
  · exact reading_reaches rfl
  · exact ⟨[], rfl⟩

theorem responding_reaches (text : String) (labels : List Delivery.Label) {call last : Delivery.State}
    {queued : Bool} (ran : run (Delivery.step .toReady (memory text) text.length) call labels = some last)
    (done : last.stage = .returned queued) :
    Reaches junk env manager connectId cmd uri body
      (settle junk env manager cmd uri body text call : State bufferSize) := by
  induction labels generalizing call with
  | nil =>
      cases ran
      rw [settle, done]
      exact resume_reaches last.connection
  | cons label labels ih =>
      rw [run_cons] at ran
      obtain ⟨next, taken, rest⟩ := Option.bind_eq_some_iff.mp ran
      rw [settle]
      split
      · exact resume_reaches call.connection
      · apply Reaches.before (.deliver label) _ (ih rest)
        rw [step, taken]
        rfl

theorem deliver_loop {loop : Streaming.State bufferSize} {call : Streaming.Call} {stage : Delivery.Stage}
    {reached : Delivery.State} {label : Delivery.Label} (responding : loop.stage = .responding call stage)
    (ran : Delivery.step .toHold call.data call.size ⟨stage, loop.connection⟩ label = some reached) :
    step junk env manager connectId cmd uri body (.streaming loop) (.deliver label) =
      some (.streaming { loop with
        stage := Streaming.settle call reached.stage, connection := reached.connection }) := by
  rw [step, Streaming.step_responding responding ran]
  rfl

theorem streaming_reaches (call : Streaming.Call) (labels : List Delivery.Label)
    (loop : Streaming.State bufferSize) {stage : Delivery.Stage} {last : Delivery.State} {queued : Bool}
    (set : loop.stage = Streaming.settle call stage)
    (ran : run (Delivery.step .toHold call.data call.size) ⟨stage, loop.connection⟩ labels = some last)
    (done : last.stage = .returned queued) :
    Reaches junk env manager connectId cmd uri body (.streaming loop) := by
  induction labels generalizing loop stage with
  | nil =>
      cases ran
      cases done
      exact reading_reaches set
  | cons label labels ih =>
      rw [run_cons] at ran
      obtain ⟨next, taken, rest⟩ := Option.bind_eq_some_iff.mp ran
      cases running : stage with
      | returned queued =>
          rw [running] at set
          exact reading_reaches set
      | waiting =>
          rw [running] at set taken
          exact Reaches.before (.deliver label) (deliver_loop set taken) (ih _ rfl rest)
      | yielded awake =>
          rw [running] at set taken
          exact Reaches.before (.deliver label) (deliver_loop set taken) (ih _ rfl rest)

theorem running_reaches (inside : Inside state) (can : CanGo env manager cmd uri body state)
    (behind : ∀ connection, state ≠ .entered connection) :
    Reaches junk env manager connectId cmd uri body state := by
  cases state with
  | entered connection => exact absurd rfl (behind connection)
  | escaped => exact can.elim
  | reached => exact ⟨[], rfl⟩
  | responding text call =>
      obtain ⟨labels, last, queued, ran, done⟩ :=
        (@Delivery.returns_iff .toReady (memory text) _ _ inside.1).mpr can
      have reaches := @responding_reaches bufferSize junk env manager connectId cmd uri body text labels
        call last queued ran done
      rw [settle] at reaches
      split at reaches
      · rename_i stage
        exact absurd stage (inside.2 _)
      · exact reaches
  | streaming loop =>
      cases stage : loop.stage with
      | reading => exact reading_reaches stage
      | stopped => exact absurd stage inside.2.1
      | responding call inner =>
          obtain ⟨labels, last, queued, ran, done⟩ :=
            (@Delivery.returns_iff .toHold call.data call.size ⟨inner, loop.connection⟩ inside.1).mpr
              (can call inner stage)
          refine streaming_reaches call labels loop ?_ ran done
          rw [stage]
          cases inner with
          | waiting => rfl
          | yielded awake => rfl
          | returned queued => exact absurd rfl (inside.2.2 call _ stage queued)

theorem reaches_iff (serves : Serves env manager connectId cmd uri body) (inside : Inside state) :
    Reaches junk env manager connectId cmd uri body state ↔ CanGo env manager cmd uri body state := by
  constructor
  · rintro ⟨labels, ran⟩
    induction labels generalizing state with
    | nil =>
        cases ran
        trivial
    | cons label labels ih =>
        rw [run_cons] at ran
        obtain ⟨next, taken, rest⟩ := Option.bind_eq_some_iff.mp ran
        obtain ⟨kept, back, -⟩ := step_spec serves label inside taken
        exact back (ih kept rest)
  · intro can
    cases state with
    | entered connection =>
        obtain ⟨next, taken, behind, kept, servable⟩ :=
          @dispatch_spec bufferSize junk _ _ _ _ _ _ serves connection
        exact Reaches.before .dispatch taken (running_reaches (kept inside) (servable.mpr can) behind)
    | escaped => exact can.elim
    | responding text call => exact running_reaches inside can (by simp)
    | streaming loop => exact running_reaches inside can (by simp)
    | reached => exact ⟨[], rfl⟩

theorem step_of_hindered (label : Label bufferSize) (hindered : ¬ Unhindered state label) :
    ∃ next, step junk env manager connectId cmd uri body state label = some next := by
  cases label with
  | dispatch =>
      rw [Unhindered] at hindered
      · exact absurd trivial hindered
      all_goals nofun
  | deliver label =>
      cases state with
      | responding text call =>
          obtain ⟨reached, ran⟩ :=
            @Delivery.step_of_not_spared .toReady (memory text) text.length call label hindered
          exact ⟨_, by rw [step, ran]; rfl⟩
      | streaming loop =>
          rw [Unhindered] at hindered
          push Not at hindered
          obtain ⟨call, stage, responding, taken⟩ := hindered
          obtain ⟨reached, ran⟩ := @Delivery.step_of_not_spared .toHold call.data call.size
            ⟨stage, loop.connection⟩ label taken
          exact ⟨_, deliver_loop responding ran⟩
      | entered connection => exact absurd trivial hindered
      | escaped => exact absurd trivial hindered
      | reached => exact absurd trivial hindered
  | read result =>
      cases state with
      | streaming loop =>
          rw [Unhindered] at hindered
          push Not at hindered
          obtain ⟨reading, -, -⟩ := hindered
          refine ⟨proceed (loop.take result), ?_⟩
          rw [step, Streaming.step, reading]
          rfl
      | entered connection => exact absurd trivial hindered
      | escaped => exact absurd trivial hindered
      | responding text call => exact absurd trivial hindered
      | reached => exact absurd trivial hindered

theorem always_reaches_iff (serves : Serves env manager connectId cmd uri body) (inside : Inside state)
    (can : CanGo env manager cmd uri body state) (labels : List (Label bufferSize)) :
    Always (step junk env manager connectId cmd uri body)
        (Reaches junk env manager connectId cmd uri body) state labels ↔
      Guarded (step junk env manager connectId cmd uri body) Unhindered state labels := by
  have kept : ∀ (state : State bufferSize) label next,
      Inside state ∧ CanGo env manager cmd uri body state → Unhindered state label →
        step junk env manager connectId cmd uri body state label = some next →
          Inside next ∧ CanGo env manager cmd uri body next := by
    intro state label next both unhindered taken
    obtain ⟨inside, -, spared⟩ := step_spec serves label both.1 taken
    exact ⟨inside, (spared both.2).mpr unhindered⟩
  have lost : ∀ (state : State bufferSize) label,
      Inside state ∧ CanGo env manager cmd uri body state → ¬ Unhindered state label →
        ∃ next, step junk env manager connectId cmd uri body state label = some next ∧
          ¬ Reaches junk env manager connectId cmd uri body next := by
    intro state label both hindered
    obtain ⟨next, taken⟩ := step_of_hindered label hindered
    obtain ⟨inside, -, spared⟩ := step_spec serves label both.1 taken
    refine ⟨next, taken, fun reaches => hindered ?_⟩
    exact (spared both.2).mp ((reaches_iff serves inside).mp reaches)
  exact always_iff_guarded kept (fun _ both => (reaches_iff serves both.1).mpr both.2) lost labels state
    ⟨inside, can⟩

theorem arrive_inside (code : HttpCode) (connection : Connection)
    (ring : RingStates.InRange connection.ring) : Inside (arrive code connection : State bufferSize) := by
  rw [arrive]
  split
  · exact ring
  · trivial

theorem arrive_canGo (code : HttpCode) (connection : Connection) :
    CanGo env manager cmd uri body (arrive code connection : State bufferSize) ↔
      (code = .getRequest → Servable env manager cmd uri body connection) := by
  rw [arrive]
  split
  · rename_i complete
    simp [CanGo, complete]
  · rename_i other
    exact iff_of_true trivial fun complete => absurd complete other

end

end OtaMqtt.Ota.Serving
