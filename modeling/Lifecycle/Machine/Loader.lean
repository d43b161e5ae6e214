import Lifecycle.Error
import Lifecycle.Machine.Registry

/-!
# The loader of the machine

Address spaces draw on a fixed pool of physical pages. An address space takes the pages of its
image and the pages of a user stack, and gives them back when it is dropped.

Numbers of pages and addresses are words of a register. A number that does not fit in one is a
fault of the machine.

* `PagePool.reserve`, `PagePool.release`: take pages out of the pool and give them back.
* `Loader.load`, `Loader.drop`: build an address space and drop it.
-/

namespace Lifecycle

/-- The physical pages of a machine. -/
structure PagePool where
  total : Nat
  /-- Pages held by address spaces. -/
  used : Nat
deriving DecidableEq, Inhabited

namespace PagePool

/-- The pool with `pages` more in use, if there are as many. -/
def reserve (p : PagePool) (pages : Nat) : Except Fault (Option PagePool) :=
  if UInt64.size ≤ p.used + pages then .error .overflow
  else .ok (if p.used + pages ≤ p.total then some { p with used := p.used + pages } else none)

/-- The pool with `pages` less in use. -/
def release (p : PagePool) (pages : Nat) : PagePool := { p with used := p.used - pages }

end PagePool

/-- The loader of a machine. -/
structure Loader where
  registry : Registry
  pool : PagePool
  /-- How many address spaces have been built. -/
  built : Nat
deriving Inhabited

namespace Loader

/-- Pages of the user stack of a process. -/
def stackPages : Nat := 8

/-- Bytes in a page. -/
def pageSize : Nat := 4096

/-- A loader over `pages` free pages. -/
def new (registry : Registry) (pages : Nat) : Loader := ⟨registry, ⟨pages, 0⟩, 0⟩

/-- The image loaded into an address space of `pages` pages. It starts at address zero, and its
stack ends where the address space ends. -/
def image (serial pages : Nat) : LoadedImage where
  entry := 0
  stack := UInt64.ofNat (pages * pageSize)
  space := ⟨serial, pages⟩

/-- Builds an address space of `pages` pages. If the address where it ends does not fit in a
register, its pages are lost to the pool. -/
def build (l : Loader) (pages : Nat) : Except Fault (Except LoadError LoadedImage) × Loader :=
  match l.pool.reserve pages with
  | .error fault => (.error fault, l)
  | .ok none => (.ok (.error .outOfMemory), l)
  | .ok (some pool) =>
    if UInt64.size ≤ pages * pageSize then (.error .overflow, { l with pool := pool })
    else (.ok (.ok (image l.built pages)), { l with pool := pool, built := l.built + 1 })

/-- Builds the address space of an executable. -/
def load (l : Loader) (name : String) : Except Fault (Except LoadError LoadedImage) × Loader :=
  match l.registry.get? name with
  | none => (.ok (.error .notFound), l)
  | some (.corrupt why) => (.ok (.error (.malformed why)), l)
  | some (.program pages _) => l.build (pages + stackPages)

/-- Drops an address space. -/
def drop (l : Loader) (space : AddressSpace) : Loader :=
  { l with pool := l.pool.release space.pages }

end Loader

end Lifecycle
