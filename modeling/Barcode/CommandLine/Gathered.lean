import Barcode.CommandLine.Argument
import Barcode.Text.Numeral

/-!
# Gathered arguments

The arguments of a command are taken one after another. An unknown flag and a surplus argument
make the call wrong only at the end, so a request for help before any other mistake is still
answered.

The mark goes with the positional argument before it, or else with the one after it. A value
that is spelled like the mark is withheld: the argument is there and has no value. Only the
argument that the mark goes with may be spelled that way.
-/

namespace Barcode.CommandLine

/-- What the arguments of a command amount to. A value that is withheld is `none`. -/
structure Gathered where
  positionals : List (Option Text) := []
  payload : Option Int := none
  flags : List Flag := []
  values : List (Flag × Option Text) := []
  afterPositional : Bool := false
  /-- Whether the mark goes with the next positional argument. -/
  markWaits : Bool := false
  surplus : Bool := false
  deriving DecidableEq, Repr

namespace Gathered

def value? (gathered : Gathered) (flag : Flag) : Option (Option Text) :=
  (gathered.values.reverse.find? fun entry => entry.1 = flag).map Prod.snd

def takeValue (gathered : Gathered) (flag : Flag) (t : Text) : Gathered :=
  let given := if t = mark then none else some t
  { gathered with values := gathered.values ++ [(flag, given)], afterPositional := false }

/-- Takes a positional argument. A payload must be an integer, unless it is withheld. -/
def takePlain (verb : Verb) (gathered : Gathered) (t : Text) : Except Usage Gathered :=
  let place := gathered.positionals.length
  if verb.arity ≤ place then .ok { gathered with surplus := true, afterPositional := false }
  else if t = mark && !gathered.markWaits then
    .ok { gathered with positionals := gathered.positionals ++ [none], afterPositional := true }
  else
    let taken :=
      { gathered with
        positionals := gathered.positionals ++ [some t], afterPositional := true
        markWaits := false }
    if verb.payloadPlace? = some place then
      match Text.Numeral.read t with
      | .ok payload => .ok { taken with payload := some payload }
      | .error _ => .error .wrong
    else .ok taken

/-- Takes the mark, which is surplus unless it goes with a positional argument. -/
def takeMark (verb : Verb) (gathered : Gathered) : Gathered :=
  let wanted := gathered.positionals.length < verb.arity
  { gathered with
    markWaits := !gathered.afterPositional && wanted
    surplus := gathered.surplus || !(gathered.afterPositional || wanted) }

def takeFlag (gathered : Gathered) (flag : Flag) : Gathered :=
  { gathered with flags := flag :: gathered.flags, afterPositional := false }

def takeUnknown (gathered : Gathered) : Gathered :=
  { gathered with surplus := true, afterPositional := false }

end Gathered

def gather (verb : Verb) : List Argument → Gathered → Except Usage Gathered
  | [], gathered => .ok gathered
  | .plain t :: rest, gathered => do gather verb rest (← gathered.takePlain verb t)
  | .mark :: rest, gathered => gather verb rest (gathered.takeMark verb)
  | .unknown :: rest, gathered => gather verb rest gathered.takeUnknown
  | .flag .help none :: _, _ => .error .help
  | .flag flag none :: rest, gathered =>
    if flag.takesValue then
      match rest with
      | .plain t :: rest => gather verb rest (gathered.takeValue flag t)
      | _ => .error .wrong
    else gather verb rest (gathered.takeFlag flag)
  | .flag flag (some t) :: rest, gathered =>
    if flag.takesValue then gather verb rest (gathered.takeValue flag t)
    else .error .wrong

end Barcode.CommandLine
