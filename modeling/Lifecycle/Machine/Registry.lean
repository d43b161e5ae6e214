import Lifecycle.Machine.Program
import Lifecycle.Pid

/-!
# Executable images of the machine

A `Registry` maps names to images. An image is a program and the pages it occupies, or a damaged
file that cannot be loaded. Registering a name again replaces its image.
-/

namespace Lifecycle

/-- An executable. -/
inductive Image where
  /-- A program; `body` is what the process of a PID runs. -/
  | program (pages : Nat) (body : Pid → Program)
  /-- A file that cannot be loaded. -/
  | corrupt (why : String)

/-- The executables of a machine. -/
structure Registry where
  images : List (String × Image)

namespace Registry

instance : Inhabited Registry := ⟨⟨[]⟩⟩

/-- A registry without images. -/
def empty : Registry := ⟨[]⟩

/-- The image of a name. -/
def get? (r : Registry) (name : String) : Option Image :=
  (r.images.find? (fun e => e.1 = name)).map (·.2)

/-- The registry with `image` under `name`. -/
def register (r : Registry) (name : String) (image : Image) : Registry :=
  ⟨(name, image) :: r.images.filter (fun e => e.1 ≠ name)⟩

/-- What the process of an executable runs, if the executable is a program. -/
def body? (r : Registry) (name : String) : Option (Pid → Program) :=
  match r.get? name with
  | some (.program _ body) => some body
  | _ => none

/-- The number of names. -/
def size (r : Registry) : Nat := r.images.length

end Registry

end Lifecycle
