import LedSketch.Proofs.Native.Call
import LedSketch.Proofs.Native.Results

namespace LedSketch

/-!
# Composition of native calls

Every native call is put together from a few basic ones.  A property that those
have, and that passes to sequences of calls, is a property of all native calls.
Such a property may say what the results are, as long as it concerns functions only.
-/

namespace Strip

/-- A strip keeps its size when a pixel is set. -/
theorem size_setPixel
    {strip changed : Strip}
    {index : Int}
    {color : Color}
    (made : strip.setPixel index color = .ok changed) :
    changed.size = strip.size := by
  unfold setPixel slot at made
  split at made
  · cases made
    simp [size]
  · cases made

/-- A strip keeps its size when pixels are filled. -/
theorem size_fill
    {strip changed : Strip}
    {word : UInt32}
    {first count : Int}
    (made : strip.fill word first count = .ok changed) :
    changed.size = strip.size := by
  unfold fill at made
  dsimp only at made
  generalize (if count = 0 then strip.size - first.toNat else count.toNat) = length at made
  split at made
  · cases made
  split at made
  · cases made
  split at made
  · cases made
    rfl
  split at made
  · cases made
  · cases made
    exact size_paint ..

end Strip

namespace Native

open Script

/--
A property of native calls and of what is known of their results, where arguments are
good values.  Sequences have it if their parts have it, and of the basic calls those
that let no time pass and print nothing.
-/
structure BasicCompositionalFor
    (good : Value → Prop)
    (holds : ∀ {α : Type}, Native α → (α → Prop) → Prop) :
    Prop where
  plain : ConcernsFunctions good
  pure :
    ∀ {α : Type} {result : α} {has : α → Prop},
      has result →
      holds (pure result : Native α) has
  throw :
    ∀ {α : Type} {has : α → Prop} (fault : CallFault), holds (throw fault : Native α) has
  next :
    ∀ {α β : Type} {call : Native α} {next : α → Native β} {mid : α → Prop}
      {has : β → Prop},
      holds call mid →
      (∀ result, holds (next result) has) →
      holds (call >>= next) has
  answer :
    ∀ {call : Native Value},
      holds call good →
      holds (do return .value (← call)) (Response.Hold good)
  readBoard :
    ∀ {α : Type} {has : α → Prop} (read : Clock → ColorOrder → α),
      (∀ clock order, has (read clock order)) →
      holds (do
        let board := (← get).board
        return read board.clock board.defaultOrder) has
  display : ∀ value, holds (display value) fun _ => True
  checkLive : holds checkLive fun _ => True
  createStrip :
    ∀ pixelCount pin order, holds (createStrip pixelCount pin order) fun _ => True
  strip : ∀ id, holds (strip id) fun _ => True
  changeStrip :
    ∀ id {change : Strip → Except StripError Strip},
      (∀ old changed, change old = .ok changed → changed.size = old.size) →
      holds (changeStrip id change) fun _ => True
  showStrip : ∀ id, holds (showStrip id) fun _ => True
  createButton : ∀ label, holds (createButton label) fun _ => True
  setHandler :
    ∀ id {handler},
      good handler →
      handler.isCallable = true →
      holds (setHandler id handler) fun _ => True
  randomBetween : ∀ low high, holds (randomBetween low high) fun _ => True
  seedRandom : ∀ seed, holds (seedRandom seed) fun _ => True
  makeArray : ∀ {items}, (∀ item ∈ items, good item) → holds (makeArray items) fun _ => True

/-- Such a property that all basic calls have. -/
structure CompositionalFor
    (good : Value → Prop)
    (holds : ∀ {α : Type}, Native α → (α → Prop) → Prop) : Prop
    extends BasicCompositionalFor good holds where
  print : ∀ text, holds (print text) fun _ => True
  printLine : ∀ text, holds (printLine text) fun _ => True
  passTime : ∀ pass, holds (passTime pass) fun _ => True

namespace BasicCompositionalFor

variable {good : Value → Prop} {holds : ∀ {α : Type}, Native α → (α → Prop) → Prop}
variable {α β : Type} {has : α → Prop} {arguments : List Value}

/-- A value that has been computed is given, or the fault of its type is thrown. -/
theorem ofType
    {computed : Except TypeFault α}
    (law : BasicCompositionalFor good holds)
    (yields : Yields has computed) :
    holds (ofType computed) has := by
  cases computed with
  | ok result => exact law.pure (yields result rfl)
  | error fault => exact law.throw (.type fault)

/-- A strip that has been computed is given, or its error is thrown. -/
theorem ofStrip
    (law : BasicCompositionalFor good holds)
    (computed : Except StripError α) :
    holds (ofStrip computed) fun _ => True := by
  cases computed with
  | ok result => exact law.pure trivial
  | error error => exact law.throw (.strip error)

theorem ofCall
    {computed : Except CallFault α}
    (law : BasicCompositionalFor good holds)
    (yields : Yields has computed) :
    holds (ofCall computed) has := by
  cases computed with
  | ok result => exact law.pure (yields result rfl)
  | error fault => exact law.throw fault

/-- A conversion of an argument comes before another part. -/
theorem convert
    {computed : Except TypeFault β}
    {next : β → Native α}
    (law : BasicCompositionalFor good holds)
    (later : ∀ result, holds (next result) has) :
    holds (Native.ofType computed >>= next) has :=
  law.next (law.ofType (fun _ _ => trivial : Yields (fun _ => True) computed)) later

/-- The order of the colors is an argument or the usual one. -/
theorem orderArgument
    (law : BasicCompositionalFor good holds)
    (arguments : List Value) :
    holds (orderArgument arguments) fun _ => True := by
  unfold Native.orderArgument
  split
  · exact law.readBoard (fun _ order => order) fun _ _ => trivial
  · exact law.ofStrip _
  · exact law.throw _

theorem callCreateStrip
    (law : BasicCompositionalFor good holds)
    (arguments : List Value) :
    holds (callCreateStrip arguments) good :=
  law.convert fun _ => law.next (law.orderArgument _) fun _ => law.convert fun _ =>
    law.convert fun _ => law.next (law.createStrip _ _ _) fun _ =>
      law.pure (law.plain.object _)

theorem callCreateButton
    (law : BasicCompositionalFor good holds)
    (arguments : List Value) :
    holds (callCreateButton arguments) good :=
  law.convert fun _ => law.next (law.display _) fun _ =>
    law.next (law.createButton _) fun _ => law.pure (law.plain.object _)

theorem callRandom
    (law : BasicCompositionalFor good holds)
    (arguments : List Value) :
    holds (callRandom arguments) good := by
  refine law.convert fun _ => law.convert fun _ => ?_
  split
  · exact law.next (law.randomBetween _ _) fun _ => law.pure (law.plain.int _)
  · exact law.convert fun _ => law.next (law.randomBetween _ _) fun _ =>
      law.pure (law.plain.int _)

theorem callArray
    (law : BasicCompositionalFor good holds)
    (arguments : List Value) :
    holds (callArray arguments) good := by
  refine law.convert fun length => ?_
  split
  · exact law.throw _
  · refine law.next (law.makeArray fun item member => ?_) fun _ =>
      law.pure (law.plain.array _)
    rw [(Array.mem_replicate.mp member).2]
    exact law.plain.int 0

/-- A native function that does not suspend the run answers with a good value. -/
theorem callBuiltin
    {builtin : Builtin}
    (law : BasicCompositionalFor good holds)
    (arguments : List Value)
    (returns : builtin.suspends = false) :
    holds (callBuiltin builtin arguments) (Response.Hold good) := by
  have plain := law.plain
  cases builtin with
  | delay | delayMicroseconds => contradiction
  | createStrip => exact law.answer (law.callCreateStrip _)
  | createButton => exact law.answer (law.callCreateButton _)
  | millis =>
      exact law.readBoard
        (fun clock _ => Response.value (.int (Int64.ofNat clock.millis)))
        fun _ _ => plain.int _
  | micros =>
      exact law.readBoard
        (fun clock _ => Response.value (.int (Int64.ofNat clock.micros)))
        fun _ _ => plain.int _
  | random => exact law.answer (law.callRandom _)
  | randomSeed =>
      exact law.convert fun _ => law.next (law.seedRandom _) fun _ =>
        law.pure plain.undefined
  | min | max =>
      exact law.convert fun _ => law.answer (law.ofType (yields_extremum plain _ _))
  | abs => exact law.answer (law.ofType (yields_absolute plain _))
  | constrain => exact law.convert fun _ => law.answer (law.ofType (yields_constrain plain _))
  | map => exact law.convert fun _ => law.answer (law.ofType (yields_mapRange plain _))
  | sqrt | sin | cos => exact law.convert fun _ => law.pure (plain.float _)
  | pow => exact law.convert fun _ => law.convert fun _ => law.pure (plain.float _)
  | array => exact law.answer (law.callArray _)

/-- What holds of the parts of strip methods holds of each of them. -/
theorem callStrip
    (law : BasicCompositionalFor good holds)
    (id : Nat)
    (name : String)
    (arguments : List Value) :
    holds (callStrip id name arguments) good := by
  have plain := law.plain
  unfold Native.callStrip
  split
  case h_1 => exact law.next (law.strip id) fun _ => law.pure plain.undefined
  case h_2 => exact law.next (law.showStrip id) fun _ => law.pure plain.undefined
  case h_3 => exact law.next (law.strip id) fun _ => law.pure (plain.bool _)
  case h_4 | h_5 | h_11 => exact law.next (law.strip id) fun _ => law.pure (plain.int _)
  case h_6 =>
    refine law.next (law.changeStrip id fun old changed made => ?_) fun _ =>
      law.pure plain.undefined
    cases made
    exact Strip.size_clear old
  case h_7 =>
    exact law.convert fun _ => law.convert fun _ => law.convert fun _ =>
      law.next (law.changeStrip id fun _ _ made => Strip.size_fill made) fun _ =>
        law.pure plain.undefined
  case h_8 =>
    exact law.convert fun _ => law.convert fun _ =>
      law.next (law.changeStrip id fun _ _ made => Strip.size_setPixel made) fun _ =>
        law.pure plain.undefined
  case h_9 =>
    exact law.convert fun _ => law.next (law.strip id) fun _ =>
      law.next (law.ofStrip _) fun _ => law.pure (plain.int _)
  case h_10 =>
    refine law.convert fun _ =>
      law.next (law.changeStrip id fun old changed made => ?_) fun _ =>
        law.pure plain.undefined
    cases made
    exact Strip.size_setBrightness ..
  case h_12 =>
    split
    · next found =>
        exact law.next law.checkLive fun _ => law.ofCall (yields_colorHelper? plain found)
    · exact law.throw _

/-- What holds of the parts of button methods holds of each of them. -/
theorem callButton
    (law : BasicCompositionalFor good holds)
    (given : ∀ argument ∈ arguments, good argument)
    (id : Nat)
    (name : String) :
    holds (callButton id name arguments) good := by
  unfold Native.callButton
  split
  · dsimp only
    split
    · next callable =>
        exact law.next (law.setHandler id (good_argument law.plain given 0) callable) fun _ =>
          law.pure law.plain.undefined
    · exact law.throw _
  · exact law.throw _

theorem serialText
    (law : BasicCompositionalFor good holds)
    (arguments : List Value) :
    holds (serialText arguments) fun _ => True := by
  unfold Native.serialText
  split
  · exact law.pure trivial
  · exact law.display _
  · refine law.convert fun _ => ?_
    split
    · exact law.pure trivial
    · exact law.pure trivial
    · exact law.pure trivial
    · exact law.display _

/-- What holds of the parts of `Serial` holds of its methods other than printing. -/
theorem callSerial
    {name : String}
    (law : BasicCompositionalFor good holds)
    (notPrint : name ≠ "print")
    (notPrintLine : name ≠ "println")
    (arguments : List Value) :
    holds (callSerial name arguments) good := by
  unfold Native.callSerial
  split
  · exact law.next law.checkLive fun _ => law.pure law.plain.undefined
  · contradiction
  · contradiction
  · exact law.throw _

theorem callNeoPixel
    (law : BasicCompositionalFor good holds)
    (name : String)
    (arguments : List Value) :
    holds (callNeoPixel name arguments) good := by
  unfold Native.callNeoPixel
  split
  · next found => exact law.ofCall (yields_colorHelper? law.plain found)
  · exact law.throw _

end BasicCompositionalFor

namespace CompositionalFor

variable {good : Value → Prop} {holds : ∀ {α : Type}, Native α → (α → Prop) → Prop}
variable {arguments : List Value}

/-- A native function answers with a good value. -/
theorem callBuiltin
    (law : CompositionalFor good holds)
    (builtin : Builtin)
    (arguments : List Value) :
    holds (callBuiltin builtin arguments) (Response.Hold good) := by
  cases suspends : builtin.suspends with
  | false => exact law.toBasicCompositionalFor.callBuiltin arguments suspends
  | true =>
      cases builtin with
      | delay | delayMicroseconds =>
          exact law.convert fun _ => law.next (law.passTime _) fun _ => law.pure trivial
      | _ => contradiction

/-- What holds of the parts of `Serial` holds of each of its methods. -/
theorem callSerial
    (law : CompositionalFor good holds)
    (name : String)
    (arguments : List Value) :
    holds (callSerial name arguments) good := by
  by_cases isPrint : name = "print"
  · subst isPrint
    exact law.next (law.serialText _) fun _ => law.next (law.print _) fun _ =>
      law.pure law.plain.undefined
  by_cases isPrintLine : name = "println"
  · subst isPrintLine
    exact law.next (law.serialText _) fun _ => law.next (law.printLine _) fun _ =>
      law.pure law.plain.undefined
  exact law.toBasicCompositionalFor.callSerial isPrint isPrintLine arguments

/-- A method returns a good value if its arguments are good. -/
theorem callMethod
    (law : CompositionalFor good holds)
    (given : ∀ argument ∈ arguments, good argument)
    (handle : Handle)
    (name : String) :
    holds (callMethod handle name arguments) good := by
  cases handle with
  | strip id => exact law.callStrip id name arguments
  | button id => exact law.callButton given id name
  | serial => exact law.callSerial name arguments
  | neoPixel => exact law.callNeoPixel name arguments

end CompositionalFor

/-- A property of native calls that sequences have if their parts have it. -/
structure Compositional (holds : ∀ {α : Type}, Native α → Prop) : Prop where
  pure : ∀ {α : Type} (result : α), holds (pure result : Native α)
  throw : ∀ {α : Type} (fault : Script.CallFault), holds (throw fault : Native α)
  bind :
    ∀ {α β : Type} {call : Native α} {next : α → Native β},
      holds call →
      (∀ result, holds (next result)) →
      holds (call >>= next)
  readBoard :
    ∀ {α : Type} (read : Clock → ColorOrder → α),
      holds (do
        let board := (← get).board
        return read board.clock board.defaultOrder)
  display : ∀ value, holds (display value)
  checkLive : holds checkLive
  createStrip : ∀ pixelCount pin order, holds (createStrip pixelCount pin order)
  strip : ∀ id, holds (strip id)
  changeStrip :
    ∀ id {change : Strip → Except StripError Strip},
      (∀ old changed, change old = .ok changed → changed.size = old.size) →
      holds (changeStrip id change)
  showStrip : ∀ id, holds (showStrip id)
  createButton : ∀ label, holds (createButton label)
  setHandler : ∀ id handler, holds (setHandler id handler)
  print : ∀ text, holds (print text)
  printLine : ∀ text, holds (printLine text)
  randomBetween : ∀ low high, holds (randomBetween low high)
  seedRandom : ∀ seed, holds (seedRandom seed)
  passTime : ∀ pass, holds (passTime pass)
  makeArray : ∀ items, holds (makeArray items)

namespace Compositional

variable {holds : ∀ {α : Type}, Native α → Prop}

/-- A property that says nothing of results does not depend on the arguments. -/
theorem forAll (law : Compositional holds) :
    CompositionalFor (fun _ => True) fun {_} call _ => holds call where
  plain _ _ := trivial
  pure _ := law.pure _
  throw fault := law.throw fault
  next := law.bind
  answer made := law.bind made fun _ => law.pure _
  readBoard read _ := law.readBoard read
  display := law.display
  checkLive := law.checkLive
  createStrip := law.createStrip
  strip := law.strip
  changeStrip id _ := law.changeStrip id
  showStrip := law.showStrip
  createButton := law.createButton
  setHandler id _ _ _ := law.setHandler id _
  print := law.print
  printLine := law.printLine
  randomBetween := law.randomBetween
  seedRandom := law.seedRandom
  passTime := law.passTime
  makeArray _ := law.makeArray _

theorem callBuiltin
    (law : Compositional holds)
    (builtin : Builtin)
    (arguments : List Value) :
    holds (callBuiltin builtin arguments) :=
  law.forAll.callBuiltin builtin arguments

theorem callMethod
    (law : Compositional holds)
    (handle : Handle)
    (name : String)
    (arguments : List Value) :
    holds (callMethod handle name arguments) :=
  law.forAll.callMethod (fun _ _ => trivial) handle name

end Compositional

end Native

end LedSketch
