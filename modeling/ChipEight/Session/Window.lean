import ChipEight.Screen.Texture

/-!
# Windows

The window of a session has room for every pixel of the picture, each one a square of
some size. Setting it up and rendering to it go through stages, and each stage can
fail.
-/

namespace ChipEight.Session

/-- What can fail about a window, in the order in which it is done. -/
inductive Stage where
  | system
  | video
  | window
  | renderer
  | events
  | texture
  | update
  | copy
  deriving DecidableEq, Repr

def Stage.isRendering : Stage → Bool
  | .texture | .update | .copy => true
  | .system | .video | .window | .renderer | .events => false

def Stage.precedesWindow : Stage → Bool
  | .system | .video => true
  | .window | .renderer | .events | .texture | .update | .copy => false

structure StageFailure where
  stage : Stage
  description : String
  deriving DecidableEq, Repr

/-- The wording of a failure. Four of the stages say where the description comes from. -/
def StageFailure.message (failure : StageFailure) : String :=
  match failure.stage with
  | .window | .renderer | .texture | .update => "SDL error: " ++ failure.description
  | .system | .video | .events | .copy => failure.description

structure Window where
  title : String
  width : UInt32
  height : UInt32
  deriving DecidableEq, Repr

namespace Window

def ofScale (scale : UInt32) : Window where
  title := "Emu-8"
  width := UInt32.ofNat Screen.width * scale
  height := UInt32.ofNat Screen.height * scale

/-- The size from which on a window cannot be asked for. -/
def sizeLimit : UInt32 := 0x80000000

end Window

/-- A texture as far as it came: its size, and the bytes from row to row once it has been
filled. -/
structure TextureRecord where
  width : Nat
  height : Nat
  pitch : Nat
  deriving DecidableEq, Repr

namespace TextureRecord

def empty : TextureRecord := ⟨Screen.width, Screen.height, 0⟩

def filled : TextureRecord := ⟨Screen.width, Screen.height, Texture.pitch⟩

def ofStage : Stage → TextureRecord
  | .texture => empty
  | _ => filled

end TextureRecord

end ChipEight.Session
