import SwarmP2p.Library.Interruptible

/-! # The identity of a bootstrap node

The key file of the bootstrap node, and how a run of the node loads or generates it. -/

namespace SwarmP2p

/-- libp2p's `Keypair` with its protobuf encoding. -/
structure KeypairCodec where
  Keypair : Type
  /-- What `Keypair::generate_ed25519` may return. -/
  IsEd25519 : Keypair → Prop
  toProtobufEncoding : Keypair → Except String (List UInt8)
  fromProtobufEncoding : List UInt8 → Except String Keypair

structure KeyFile where
  contents : List UInt8
  /-- The permission bits. -/
  mode : UInt32
  deriving DecidableEq, Repr

/-! ### File operations -/

/-- Operations on one path, at which there may be no file. -/
abbrev FileM (α : Type) : Type := Interruptible (Option KeyFile) String α

def noSuchFile : String := "No such file or directory (os error 2)"

/-- `path.exists()`. -/
def pathExists : FileM Bool := .act fun file => (file, .ok file.isSome)

/-- `std::fs::read`. -/
def fsRead : FileM (List UInt8) :=
  .act fun
    | none => (none, .error noSuchFile)
    | some file => (some file, .ok file.contents)

/-- The mode of a file that is created under a umask. -/
def createdMode (umask : UInt32) : UInt32 := 0o666 &&& ~~~umask

/-- `File::create`: an existing file is truncated and keeps its mode. -/
def fileCreate (umask : UInt32) : FileM PUnit :=
  .act fun
    | none => (some ⟨[], createdMode umask⟩, .ok ⟨⟩)
    | some file => (some { file with contents := [] }, .ok ⟨⟩)

def writeByte (byte : UInt8) : FileM PUnit :=
  .act fun
    | none => (none, .error noSuchFile)
    | some file => (some { file with contents := file.contents ++ [byte] }, .ok ⟨⟩)

/-- `std::fs::write`, which may have written any prefix when it is stopped. -/
def fsWrite (umask : UInt32) (bytes : List UInt8) : FileM PUnit := do
  fileCreate umask
  bytes.forM writeByte

/-- `std::fs::set_permissions`. -/
def setPermissions (mode : UInt32) : FileM PUnit :=
  .act fun
    | none => (none, .error noSuchFile)
    | some file => (some { file with mode := mode }, .ok ⟨⟩)

/-- `load_or_generate_keypair`, which would generate `generated`. -/
def loadOrGenerateKeypair (c : KeypairCodec) (generated : c.Keypair) (umask : UInt32) :
    FileM c.Keypair := do
  if ← pathExists then
    let bytes ← fsRead
    .lift (c.fromProtobufEncoding bytes)
  else
    let bytes ← Interruptible.lift (c.toProtobufEncoding generated)
    fsWrite umask bytes
    setPermissions 0o600
    return generated

/-! ### Runs -/

/-- One run of the function: the key that it would generate, and after how many file
operations it crashes or fails, if it does. -/
structure KeyRun (c : KeypairCodec) where
  generated : c.Keypair
  isEd25519 : c.IsEd25519 generated
  umask : UInt32
  interruption : Option Nat

namespace KeyRun

variable {c : KeypairCodec}

def code (run : KeyRun c) : FileM c.Keypair :=
  loadOrGenerateKeypair c run.generated run.umask

/-- The file that the run leaves. -/
def leaves (run : KeyRun c) (file : Option KeyFile) : Option KeyFile :=
  match run.interruption with
  | none => run.code.final file
  | some i => run.code.stopped file i

/-- What the run returns, if it is not interrupted. -/
def returned? (run : KeyRun c) (file : Option KeyFile) : Option (Except String c.Keypair) :=
  match run.interruption with
  | none => some (run.code file).result
  | some _ => none

end KeyRun

end SwarmP2p
