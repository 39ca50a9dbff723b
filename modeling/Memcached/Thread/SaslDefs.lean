import Memcached.Lib.Memory
import Memcached.Lib.Pieces

/-!
# The password file of thread/sasl_defs.c
-/

namespace Memcached.Thread

open Memory (read write)

def MAX_ENTRY_LEN : Nat := 256

inductive Checkpass
  | SASL_OK
  | SASL_NOAUTHZ
  deriving DecidableEq

namespace Checkpass

/-- `fgets` from a file that is not at its end: what is stored before the NUL, and what is left. -/
def fgets (size : Nat) (pwfile : List UInt8) : List UInt8 × List UInt8 := Pieces.cut 10 (size - 1) pwfile

/-- The comparison of the password, from `unmlen` on. -/
def pass_matches (pass : List UInt8) (buffer : Nat → UInt8) (unmlen : Nat) : Bool :=
  read buffer unmlen pass.length = pass ∧
    (buffer (unmlen + pass.length) = 58 ∨
    buffer (unmlen + pass.length) = 10 ∨
    buffer (unmlen + pass.length) = 13 ∨
    buffer (unmlen + pass.length) = 0)

/-- The loop over the file: `ok`. -/
def check_lines (user pass : List UInt8) (buffer : Nat → UInt8) (pwfile : List UInt8) : Bool :=
  if pwfile = [] then false
  else
    let buffer := write buffer 0 ((fgets MAX_ENTRY_LEN pwfile).1 ++ [0])
    if read buffer 0 user.length = user ∧ buffer user.length = 58 then pass_matches pass buffer (user.length + 1)
    else check_lines user pass buffer (fgets MAX_ENTRY_LEN pwfile).2
termination_by pwfile.length
decreasing_by exact Pieces.length_cut_lt ‹_›

end Checkpass

open Checkpass in
/-- `user` is a string, without its NUL. No file is one that cannot be opened; `buffer` is not initialized. -/
def sasl_server_userdb_checkpass (pwfile : Option (List UInt8)) (buffer : Nat → UInt8) (user pass : List UInt8) :
    Checkpass :=
  if pass.length + user.length > MAX_ENTRY_LEN - 4 then .SASL_NOAUTHZ
  else
    match pwfile with
    | none => .SASL_NOAUTHZ
    | some pwfile => if check_lines user pass buffer pwfile then .SASL_OK else .SASL_NOAUTHZ

end Memcached.Thread
