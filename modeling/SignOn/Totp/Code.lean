import SignOn.Error
import SignOn.Text.Blank
import SignOn.Text.Upper
import SignOn.Totp.Base32
import SignOn.Totp.Sha1

/-! # Time-based one-time codes

Time is cut into windows of `step` seconds.  The code of a window is made of six digits and
depends on the secret and on the number of the window.

* `codeAt` is the code at a time, `accepts` checks a code against the window of a time and its two
  neighbours.
* `secondsLeft` and `millisLeft` say how long the current window still lasts. -/

namespace SignOn.Totp

/-- Seconds of a window unless set otherwise. -/
def defaultStep : Nat := 30

/-- Windows before and after the current one whose codes are accepted. -/
def skew : Nat := 1

def maxNat64 : Nat := UInt64.size - 1

/-- A secret without blanks and padding, in upper case. -/
def normalizeSecret (secret : String) : String :=
  Text.upper (String.ofList (secret.toList.filter fun c => !Text.isBlank c && c ≠ '='))

def secretBytes (secret : String) : Except MfaError (List UInt8) :=
  match Base32.decode? (normalizeSecret secret) with
  | none => .error (.invalidSecret "ParseBase32")
  | some [] => .error (.invalidSecret "secret is empty")
  | some key => .ok key

/-- The 31 bits of a keyed hash that its last half byte points at. -/
def truncate (digest : List UInt8) : Nat :=
  let offset := (digest.getLast?.getD 0).toNat % 16
  ((digest.drop offset).take 4).foldl (fun n b => n * 256 + b.toNat) 0 % 0x80000000

def windowCode (key : List UInt8) (window : Nat) : String :=
  Text.padNat 6 (truncate (Sha1.hmac key (Sha1.bytesOf 8 window)) % 1000000)

/-- The code at a time in seconds. -/
def codeAt (step : Nat) (secret : String) (seconds : Nat) : Except MfaError String :=
  (secretBytes secret).map fun key => windowCode key (seconds / step)

/-- Is `code` the code of the window of a time or of a neighbour? -/
def accepts (step : Nat) (secret code : String) (seconds : Nat) : Bool :=
  match secretBytes secret with
  | .error _ => false
  | .ok key =>
    let first := seconds / step - skew
    (List.range (2 * skew + 1)).any fun i => windowCode key (first + i) == Text.trim code

/-- Seconds up to the next window. -/
def secondsLeft (seconds step : Nat) : Nat :=
  let step := max step 1
  step - seconds % step

/-- Milliseconds up to the next window; a window longer than 64 bits can count is cut there. -/
def millisLeft (millis step : Nat) : Nat :=
  let step := min (max step 1 * 1000) maxNat64
  step - millis % step

end SignOn.Totp
