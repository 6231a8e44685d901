import EmulationBindings.Disk.Access
import EmulationBindings.Shape.Basic

/-!
# Packages

The entry of one package in the metadata that the build tool prints, and where its table lies.

A manifest path that denotes no text is shown with escapes in it.  The file that it leads to can
still be read when the name of the manifest alone is to blame, since the table's path has the
directory in common with it and not the name.  Otherwise it cannot be looked for, or is not there: a
surrogate from U+DC80 on stands for a byte of a name that is not UTF-8, and the disk has no such
names.
-/

namespace EmulationBindings.Metadata

structure Package where
  name : Json.Str
  version : Option Json.Str
  manifestPath : Json.Str
  deriving DecidableEq

/-- What the tool prints as a whole: its entries stay unread until one is looked up. -/
structure Listing where
  packages : List Json
  workspaceRoot : Option Json.Str

def Listing.ofJson (v : Json) : Except Shape.Fault Listing :=
  Shape.finish "CargoMetadata" do
    let ms ← Shape.members "CargoMetadata" v
    Shape.Checked.apply
      ((Shape.required ms "packages" Shape.items).map Listing.mk)
      (Shape.withDefault ms "workspace_root" none Shape.optionalString)

def Package.ofMembers (ms : Json.Members) : Except Shape.Fault Package :=
  Shape.finish "CargoPackage"
    (Shape.Checked.apply
      (Shape.Checked.apply
        ((Shape.required ms "name" Shape.string).map Package.mk)
        (Shape.withDefault ms "version" none Shape.optionalString))
      (Shape.required ms "manifest_path" Shape.string))

/-- The members of an entry that is an object with this string as its name. -/
def named? (name : Json.Str) : Json → Option Json.Members
  | .object ms =>
    match (Json.Members.get? ms "name").bind Json.string? with
    | some s => if s = name then some ms else none
    | none => none
  | _ => none

inductive LookupFault where
  | shape (fault : Shape.Fault)
  | package (name : Json.Str) (fault : Shape.Fault)
  | absent (name : Json.Str)
  deriving DecidableEq

/-- The first package with exactly this name.  Entries with another name, or with none, may have
any shape at all. -/
def findPackage (metadata : Json) (name : Json.Str) : Except LookupFault Package :=
  match Listing.ofJson metadata with
  | .error fault => .error (.shape fault)
  | .ok listing =>
    match listing.packages.findSome? (named? name) with
    | none => .error (.absent name)
    | some ms => (Package.ofMembers ms).mapError (.package name)

namespace Package

/-- The directory of the manifest. -/
def directory (p : Package) : Path := (Path.ofText p.manifestPath.shown).parent

def tablePath (p : Package) (subpath : List Text) : Path := p.directory.joinAll subpath

/-! ## Directories that cannot be named -/

/-- The code points of the directory's path. -/
def directoryPoints (p : Package) (points : List Nat) : List Nat :=
  let names := (points.splitOn '/'.toNat).filter fun name => name ≠ [] ∧ name ≠ ['.'.toNat]
  p.directory.anchor.text.map Char.toNat ++ List.intercalate ['/'.toNat] names.dropLast

/-- A surrogate that stands for a byte. -/
def isByte (n : Nat) : Bool := 0xDC80 ≤ n && n ≤ 0xDCFF

/-- Where the first surrogate is that stands for nothing, and it and those right behind it. -/
def unencodable? (points : List Nat) : Option (Nat × List Nat) :=
  let position := points.findIdx fun n => Json.isSurrogate n && !isByte n
  match points.drop position with
  | [] => none
  | rest => some (position, rest.takeWhile Json.isSurrogate)

/-- What keeps the table from being looked for at its path. -/
def tableFault? (p : Package) (subpath : List Text) : Option AccessFault :=
  match p.manifestPath with
  | .text _ => none
  | .unpaired points =>
    if subpath.any (·.head? = some '/') then none
    else
      let directory := p.directoryPoints points
      match unencodable? directory with
      | some (position, surrogates) => some (.unencodable position surrogates)
      | none =>
        if directory.any Json.isSurrogate && !(p.tablePath subpath).hasNul then
          some (.blocked .missing (p.tablePath subpath))
        else none

end Package

end EmulationBindings.Metadata
