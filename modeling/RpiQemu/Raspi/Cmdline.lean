import Mathlib.Data.List.SplitBy
import Mathlib.Algebra.Group.Nat.Defs

/-! # The kernel command line

    `raspi_fixup_cmdline` of `hw/arm/raspi.c`: the DTB's bootargs and `-append` are
    joined, and a scan over the result replaces `console=serial<n>` by the tty that
    the DTB's alias names.

    A byte is a `Char`.  The alias is a parameter: the UART that `serial<n>` names,
    if it names one. -/

namespace Raspi

/-- A C string. -/
abbrev Text := List Char

/-- `RaspiUartKind`. -/
inductive RaspiUartKind where
  | RPI_UART_NONE
  | RPI_UART_PL011
  | RPI_UART_MINI
  deriving DecidableEq, Repr

open RaspiUartKind

/-- `g_ascii_isspace`. -/
def g_ascii_isspace (c : Char) : Bool :=
  c == ' ' || c == '\t' || c == '\n' || c == '\r' || c == '\x0c'

/-- `g_ascii_isdigit`. -/
def g_ascii_isdigit (c : Char) : Bool := c.isDigit

def console : Text := "console=serial".toList

/-- The value of a string of digits. -/
def digits_value (digits : Text) : Nat :=
  digits.foldl (fun n c => 10 * n + (c.toNat - '0'.toNat)) 0

/-- `qemu_strtoul` on a string that starts with a digit: the number, and the tail; or
    nothing where it does not fit. -/
def qemu_strtoul (p : Text) : Option (Nat × Text) :=
  let n := digits_value (p.takeWhile g_ascii_isdigit)
  if n < 2 ^ 64 then some (n, p.dropWhile g_ascii_isdigit) else none

/-- `%lu`. -/
def decimal (n : Nat) : Text := Nat.toDigits 10 n

def tty_name (kind : RaspiUartKind) : Text :=
  if kind = RPI_UART_MINI then "ttyS".toList else "ttyAMA".toList

/-- `console=%s%lu`. -/
def console_tty (kind : RaspiUartKind) (n : Nat) : Text :=
  "console=".toList ++ tty_name kind ++ decimal n

/-! ## The scan -/

section scan

variable (raspi_serial_alias : Nat → Option RaspiUartKind)

/-- The condition of the scan at `p`, whose last byte before is `prev`: what replaces
    the argument's head, and its tail. -/
def console_at (prev : Option Char) (p : Text) : Option (Text × Text) :=
  if prev.all g_ascii_isspace && console.isPrefixOf p &&
      (p.drop console.length).head?.any g_ascii_isdigit then
    match qemu_strtoul (p.drop console.length) with
    | some (n, tail) =>
      if tail.head?.all (fun c => c == ',' || g_ascii_isspace c) then
        match raspi_serial_alias n with
        | some kind => if kind ≠ RPI_UART_NONE then some (console_tty kind n, tail) else none
        | none => none
      else none
    | none => none
  else none

/-- The loop: `fuel` turns of it, one for each byte of the string at most. -/
def fixup_loop : Nat → Option Char → Text → Text
  | 0, _, _ => []
  | _ + 1, _, [] => []
  | fuel + 1, prev, c :: p =>
    match console_at raspi_serial_alias prev (c :: p) with
    | some (out, tail) =>
      out ++ fixup_loop fuel ((c :: p).take ((c :: p).length - tail.length)).getLast? tail
    | none => c :: fixup_loop fuel (some c) p

/-- The parts of `struct arm_boot_info`. -/
structure ArmBootInfo where
  kernel_cmdline : Option Text
  dtb_filename : Option Text

/-- The property `/chosen/bootargs` afterwards, from the one before and the bootargs in
    DTB files. -/
def raspi_fixup_cmdline (raspi_dtb_file_bootargs : Text → Option Text) (info : ArmBootInfo)
    (bootargs : Option Text) : Option Text :=
  match bootargs with
  | none => none
  | some bootargs =>
    let dtb_args :=
      match info.kernel_cmdline, info.dtb_filename with
      | some (_ :: _), some file => raspi_dtb_file_bootargs file
      | _, _ => none
    let cmdline :=
      match dtb_args with
      | some (c :: dtb_args) => c :: dtb_args ++ ' ' :: bootargs
      | _ => bootargs
    some (fixup_loop raspi_serial_alias cmdline.length none cmdline)

/-- `boot.c` replaces the DTB's bootargs when `-append` is not empty. -/
def boot_bootargs (dtb append : Text) : Text := if append = [] then dtb else append

/-- A machine that is started with a DTB whose bootargs are `dtb`, and with `-append`. -/
def resulting_bootargs (dtb append : Text) : Option Text :=
  raspi_fixup_cmdline raspi_serial_alias (fun _ => some dtb)
    { kernel_cmdline := some append, dtb_filename := some "dtb".toList }
    (some (boot_bootargs dtb append))

/-! ## Arguments -/

/-- An argument, with the head of `console=serial<n>` replaced when it is one. -/
def resolve_argument (arg : Text) : Text :=
  if console.isPrefixOf arg then
    let digits := (arg.drop console.length).takeWhile g_ascii_isdigit
    let options := (arg.drop console.length).dropWhile g_ascii_isdigit
    if digits ≠ [] ∧ options.head?.all (· == ',') ∧ digits_value digits < 2 ^ 64 then
      match raspi_serial_alias (digits_value digits) with
      | some RPI_UART_MINI => "console=ttyS".toList ++ decimal (digits_value digits) ++ options
      | some RPI_UART_PL011 => "console=ttyAMA".toList ++ decimal (digits_value digits) ++ options
      | _ => arg
    else arg
  else arg

/-- The maximal runs of whitespace and of other bytes. -/
def runs (text : Text) : List Text :=
  text.splitBy (fun a b => g_ascii_isspace a == g_ascii_isspace b)

/-- Every argument resolved; whitespace is no argument, and stays. -/
def resolve (text : Text) : Text := (runs text).flatMap (resolve_argument raspi_serial_alias)

end scan

end Raspi
