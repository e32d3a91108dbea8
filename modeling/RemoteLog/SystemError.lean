/-! # System errors

What the host system answers when a file, a stream or a network address cannot be used.

* **`SystemError`** — the causes.
* **`SystemError.message e`** — the text, with the system's error number where there is one. -/

namespace RemoteLog

/-- Why the host refused an operation. -/
inductive SystemError where
  /-- No entry has this path. -/
  | notFound
  /-- A path leads through something that is no directory. -/
  | notDirectory
  /-- A directory stands where a file is needed. -/
  | isDirectory
  /-- An entry stands where a new one is to be made. -/
  | alreadyExists
  /-- A path or one of its names is longer than the system allows. -/
  | nameTooLong
  /-- Resolving a path met too many symbolic links. -/
  | tooManyLinks
  /-- A path or a host name holds a NUL character. -/
  | nulInName
  /-- The device failed while it was read. -/
  | inputOutput
  /-- The address has no meaning without more. -/
  | invalidArgument
  /-- The zone of an address is no interface. -/
  | noDevice
  /-- No route leads to the address. -/
  | networkUnreachable
  /-- Nothing listens at the address. -/
  | connectionRefused
  /-- The address is taken by another listener. -/
  | addressInUse
  /-- The address is none of this host. -/
  | addressNotAvailable
  /-- The text is no socket address: a port is missing. -/
  | invalidSocketAddress
  /-- The port of a socket address is no number below 65536. -/
  | invalidPort
  /-- A text names no host. -/
  | unknownHost
  /-- No name server answers. -/
  | nameServerUnreachable
  /-- A stream ended inside a field of fixed length. -/
  | endInField
  /-- A stream ended inside a block of announced length. -/
  | endInBlock
  /-- A cause that is known by its text only. -/
  | other (text : String)
  deriving DecidableEq

namespace SystemError

/-- The text of an error that has a number. -/
def numbered (text : String) (number : Nat) : String := s!"{text} (os error {number})"

/-- The text of an error. -/
def message : SystemError → String
  | notFound => numbered "No such file or directory" 2
  | notDirectory => numbered "Not a directory" 20
  | isDirectory => numbered "Is a directory" 21
  | alreadyExists => numbered "File exists" 17
  | nameTooLong => numbered "File name too long" 36
  | tooManyLinks => numbered "Too many levels of symbolic links" 40
  | nulInName => "file name contained an unexpected NUL byte"
  | inputOutput => numbered "Input/output error" 5
  | invalidArgument => numbered "Invalid argument" 22
  | noDevice => numbered "No such device" 19
  | networkUnreachable => numbered "Network is unreachable" 101
  | connectionRefused => numbered "Connection refused" 111
  | addressInUse => numbered "Address already in use" 98
  | addressNotAvailable => numbered "Cannot assign requested address" 99
  | invalidSocketAddress => "invalid socket address"
  | invalidPort => "invalid port value"
  | unknownHost => "failed to lookup address information: Name or service not known"
  | nameServerUnreachable =>
    "failed to lookup address information: Temporary failure in name resolution"
  | endInField => "unexpected end of file"
  | endInBlock => "early eof"
  | other text => text

end SystemError

end RemoteLog
