import Mathlib.Data.List.DropRight
import Mathlib.Algebra.Group.Nat.Defs

/-! # The config.txt parser

    `lib/rpi_cfgtxt.c` of the U-Boot patch: a buffer is cut into lines, a
    section header updates the filters of `struct cfgtxt_state`, and a
    directive line that passes all the filters writes `rpi_cfg_*`
    environment variables.

    A byte is a `Char`.  What the parser does to the rest of U-Boot is the
    list of its `env_set` calls, together with what its include callback
    does.  `none` stands for a parse that has not finished: the parse loop
    runs with fuel for one turn per byte, and a callback may itself give up
    (`load` does, when it may not nest any deeper). -/

namespace Cfgtxt

/-- A buffer or a C string, one character for each byte. -/
abbrev Text := List Char

/-- `enum rpi_board_model`. -/
inductive Board where
  | pi0 | pi02 | pi1 | cm1 | pi2 | pi3 | cm3 | pi4 | pi400 | cm4 | pi5 | pi500 | cm5
  deriving DecidableEq, Repr

/-- `struct rpi_cfgtxt_opts`, less the callback, which is an argument of its
    own in the functions below. -/
structure Opts where
  model : Board
  serial : Nat
  boot_partition : Int
  tryboot : Bool
  include_depth : Int
  deriving DecidableEq, Repr

/-- U-Boot's number readers (`vsprintf.h`). -/
structure Vsprintf where
  hextoull : Text → Nat
  dectoul : Text → Nat

/-- What happens during a parse: a variable is set, or the callback starts to
    parse a file. -/
inductive Call where
  | env_set (name value : Text)
  | parse (file : Text)
  deriving DecidableEq, Repr

/-- A call, with the number of included parses that are active then. -/
structure Event where
  level : Nat
  call : Call
  deriving DecidableEq, Repr

/-- `cfgtxt_include_fn`: what the callback does for a file name and the
    child's options. -/
abbrev IncludeFn := Text → Opts → Option (List Event)

def MAX_INCLUDE_DEPTH : Int := 8
def MAX_LINE_LEN : Nat := 512
def ENV_PREFIX : Text := "rpi_cfg_".toList

/-! ## Models and their section names -/

/-- `rpi_cfgtxt_model_filters`. -/
def model_filters : Board → List Text
  | .pi0 => ["pi0".toList]
  | .pi02 => ["pi0".toList, "pi02".toList]
  | .pi1 => ["pi1".toList]
  | .cm1 => ["pi1".toList, "cm1".toList]
  | .pi2 => ["pi2".toList]
  | .pi3 => ["pi3".toList]
  | .cm3 => ["pi3".toList, "cm3".toList]
  | .pi4 => ["pi4".toList]
  | .pi400 => ["pi4".toList, "pi400".toList]
  | .cm4 => ["pi4".toList, "cm4".toList]
  | .pi5 => ["pi5".toList]
  | .pi500 => ["pi5".toList, "pi500".toList]
  | .cm5 => ["pi5".toList, "cm5".toList]

def model_matches_section (model : Board) (name : Text) : Bool :=
  (model_filters model).any (· == name)

/-! ## Filter state machine -/

/-- `enum filter_state`. -/
inductive FilterState where
  | unset
  | matched
  | nomatch
  deriving DecidableEq, Repr

/-- `FILTER_MATCH` or `FILTER_NOMATCH`, as a test turns out. -/
def FilterState.of (b : Bool) : FilterState :=
  if b then .matched else .nomatch

/-- `struct cfgtxt_state`.  The line buffer is handed from `copy_line` to
    the line's handler and is no part of it. -/
structure State where
  model_filter : FilterState := .unset
  serial_filter : FilterState := .unset
  partition_filter : FilterState := .unset
  tryboot_filter : FilterState := .unset
  edid_filter : FilterState := .unset
  gpio_filter : FilterState := .unset
  none_active : Bool := false
  dtoverlay_count : Nat := 0
  dtparam_count : Nat := 0
  gpio_count : Nat := 0
  deriving DecidableEq, Repr

def line_accepted (state : State) : Bool :=
  if state.none_active then false
  else if state.model_filter = .nomatch then false
  else if state.serial_filter = .nomatch then false
  else if state.partition_filter = .nomatch then false
  else if state.tryboot_filter = .nomatch then false
  else if state.edid_filter = .nomatch then false
  else if state.gpio_filter = .nomatch then false
  else true

/-- `section[4] >= '0' && section[4] <= '9'` after `gpio`. -/
def is_gpio_section (name : Text) : Bool :=
  "gpio".toList.isPrefixOf name &&
    match name.drop 4 with
    | [] => false
    | c :: _ => decide ('0' ≤ c) && decide (c ≤ '9')

/-- The name between `[` and the first `]`, when it fits `section[64]`. -/
def section_name (line : Text) : Option Text :=
  let p := line.drop 1
  if ']' ∈ p then
    let name := p.takeWhile (· != ']')
    if name.length = 0 ∨ 64 ≤ name.length then none else some name
  else none

def eval_section_header (lib : Vsprintf) (opts : Opts) (line : Text)
    (state : State) : State :=
  match section_name line with
  | none => state
  | some name =>
    -- any header clears a [none] block
    let state := { state with none_active := false }
    if name = "all".toList then
      { state with
        model_filter := .unset
        serial_filter := .unset
        partition_filter := .unset
        tryboot_filter := .unset
        edid_filter := .unset
        gpio_filter := .unset
        none_active := false }
    else if name = "none".toList then
      { state with none_active := true }
    else if name = "tryboot".toList then
      { state with tryboot_filter := FilterState.of opts.tryboot }
    else if "serial=".toList.isPrefixOf name then
      { state with serial_filter := FilterState.of (lib.hextoull (name.drop 7) == opts.serial) }
    else if "partition=".toList.isPrefixOf name then
      -- the unsigned long is stored in an int before it is compared
      { state with partition_filter :=
          FilterState.of (Int.bmod (lib.dectoul (name.drop 10)) (2 ^ 32) == opts.boot_partition) }
    else if "EDID=".toList.isPrefixOf name then
      { state with edid_filter := .nomatch }
    else if is_gpio_section name then
      { state with gpio_filter := .nomatch }
    else
      { state with model_filter := FilterState.of (model_matches_section opts.model name) }

/-! ## Lines -/

def is_blank (c : Char) : Bool := c == ' ' || c == '\t'

def drop_cr (raw : Text) : Text :=
  if raw.getLast? = some '\r' then raw.dropLast else raw

/-- What `copy_line` leaves in `line_buf` of the bytes up to the end of the
    line: the C string ends at the first NUL. -/
def line_buf (raw : Text) : Text :=
  ((((drop_cr raw).dropWhile is_blank).take (MAX_LINE_LEN - 1)).rdropWhile
    is_blank).takeWhile (· != '\x00')

/-- The line at `pos`, and where the next one starts. -/
def copy_line (pos : Text) : Text × Text :=
  (line_buf (pos.takeWhile (· != '\n')), (pos.dropWhile (· != '\n')).drop 1)

/-! ## Directive handlers -/

/-- A decimal, as `%d` and `env_set_ulong` print it. -/
def decimal (n : Nat) : Text := Nat.toDigits 10 n

def env_set (name value : Text) : Event := ⟨0, .env_set name value⟩

/-- The counter after the call, and the two variables it sets. -/
def set_env_indexed (stem : Text) (counter : Nat) (value : Text) : Nat × List Event :=
  (counter + 1,
    [env_set (stem ++ '_' :: decimal counter) value,
     env_set (stem ++ "_count".toList) (decimal (counter + 1))])

/-- `initramfs <file> [<addr>]`, from the bytes after the first blank. -/
def handle_initramfs (args : Text) : List Event :=
  let file := args.dropWhile is_blank
  if file = [] then []
  else
    let addr := ((file.dropWhile (fun c => !is_blank c)).drop 1).dropWhile is_blank
    [env_set (ENV_PREFIX ++ "initramfs".toList) (file.takeWhile (fun c => !is_blank c)),
     env_set (ENV_PREFIX ++ "initramfs_addr".toList)
       (if addr = [] then "followkernel".toList else addr)]

/-- `include <file>`, from the bytes after the first blank. -/
def handle_include (cb : Option IncludeFn) (opts : Opts) (args : Text) :
    Option (List Event) :=
  let file := args.dropWhile is_blank
  if file = [] then some []
  else
    match cb with
    | none => some []
    | some include_cb =>
      if opts.include_depth < MAX_INCLUDE_DEPTH then
        include_cb file { opts with include_depth := opts.include_depth + 1 }
      else some []

/-- `<key>=<value>`. -/
def handle_key (key value : Text) (state : State) : State × List Event :=
  -- sizeof(name) - strlen(RPI_CFGTXT_ENV_PREFIX) - 1
  if 64 - ENV_PREFIX.length - 1 < key.length then (state, [])
  else if key = "dtoverlay".toList then
    let r := set_env_indexed (ENV_PREFIX ++ "dtoverlay".toList) state.dtoverlay_count value
    ({ state with dtoverlay_count := r.1 }, r.2)
  else if key = "dtparam".toList then
    let r := set_env_indexed (ENV_PREFIX ++ "dtparam".toList) state.dtparam_count value
    ({ state with dtparam_count := r.1 }, r.2)
  else if key = "gpio".toList then
    let r := set_env_indexed (ENV_PREFIX ++ "gpio".toList) state.gpio_count value
    ({ state with gpio_count := r.1 }, r.2)
  else (state, [env_set (ENV_PREFIX ++ key) value])

def handle_directive (cb : Option IncludeFn) (opts : Opts) (line : Text)
    (state : State) : Option (State × List Event) :=
  if "initramfs ".toList.isPrefixOf line then
    some (state, handle_initramfs (line.drop 10))
  else if "include ".toList.isPrefixOf line then
    (handle_include cb opts (line.drop 8)).map (fun evs => (state, evs))
  else
    match line.dropWhile (· != '=') with
    | [] => some (state, [])
    | _ :: value => some (handle_key (line.takeWhile (· != '=')) value state)

/-! ## Main parse loop -/

/-- The body of the loop, once the line is in the buffer. -/
def parse_line (lib : Vsprintf) (cb : Option IncludeFn) (opts : Opts) (line : Text)
    (state : State) : Option (State × List Event) :=
  match line with
  | [] => some (state, [])
  | c :: _ =>
    if c = '#' then some (state, [])
    else if c = '[' then some (eval_section_header lib opts line state, [])
    else if line_accepted state then handle_directive cb opts line state
    else some (state, [])

def parse_loop (lib : Vsprintf) (cb : Option IncludeFn) (opts : Opts) :
    Nat → State → Text → Option (State × List Event)
  | _, state, [] => some (state, [])
  | 0, _, _ :: _ => none
  | fuel + 1, state, c :: cs =>
    match parse_line lib cb opts (copy_line (c :: cs)).1 state with
    | none => none
    | some (state, evs) =>
      match parse_loop lib cb opts fuel state (copy_line (c :: cs)).2 with
      | none => none
      | some (state, more) => some (state, evs ++ more)

def EINVAL : Int := 22

/-- The return value and the calls made. -/
def rpi_cfgtxt_parse (lib : Vsprintf) (cb : Option IncludeFn) (opts : Opts) (buf : Text) :
    Option (Int × List Event) :=
  if buf = [] then some (-EINVAL, [])
  else (parse_loop lib cb opts buf.length {} buf).map (fun r => (0, r.2))

end Cfgtxt
