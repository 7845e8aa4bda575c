import Allowlist.Number.Digits

/-!
# Time in log records

Records for machines have the universal time to the millisecond, cut off and not rounded; records
for people have the local time to the second.
-/
namespace Allowlist.Log

structure Timestamp where
  year : Nat
  month : Nat
  day : Nat
  hour : Nat
  minute : Nat
  second : Nat
  microsecond : Nat
  deriving DecidableEq

namespace Timestamp

def two (n : Nat) : List Char := Digits.fixed 10 2 n

def date (t : Timestamp) : List Char :=
  Digits.fixed 10 4 t.year ++ '-' :: (two t.month ++ '-' :: two t.day)

def time (t : Timestamp) : List Char :=
  two t.hour ++ ':' :: (two t.minute ++ ':' :: two t.second)

def universal (t : Timestamp) : List Char :=
  t.date ++ 'T' :: (t.time ++ '.' :: (Digits.fixed 10 3 (t.microsecond / 1000) ++ ['Z']))

def plain (t : Timestamp) : List Char := t.date ++ ' ' :: t.time

end Timestamp

structure Clock where
  universal : Timestamp
  civil : Timestamp

end Allowlist.Log
