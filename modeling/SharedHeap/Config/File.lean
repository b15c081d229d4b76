import SharedHeap.Config.Reading
import SharedHeap.Error

/-!
Configuration files.
-/

namespace SharedHeap.Config

def ofText (text : String) : Except Error Config :=
  match parse text with
  | some c => .ok c
  | none => .error .parseConfig

def load (files : Files ByteArray) (path : String) : Except Error Config :=
  match files.read path with
  | .error cause => .error (.readConfig path cause)
  | .ok bytes =>
    match String.fromUTF8? bytes with
    | none => .error (.readConfig path .notText)
    | some text => ofText text

end SharedHeap.Config
