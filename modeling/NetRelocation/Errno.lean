import NetRelocation.Text.Numeral

/-!
# Error numbers of the system

The numbers that system calls and the kernel report, each with its symbolic name and two wordings:
the one of the C library, and the one that goes with the symbolic name.
-/

namespace NetRelocation.Errno

/-! ## Numbers with a meaning of their own -/

/-- No such file or directory. -/
def noEntry : Nat := 2

/-- Interrupted; the request may be repeated. -/
def interrupted : Nat := 4

def noDevice : Nat := 19

def notDirectory : Nat := 20

def isDirectory : Nat := 21

def invalidArgument : Nat := 22

def nameTooLong : Nat := 36

/-! ## Wording -/

/-- The row of a number whose two wordings agree. -/
def agreed (number : Nat) (name text : String) : Nat × String × String × String :=
  (number, name, text, text)

/-- Number, symbolic name, wording of the C library, wording that goes with the name. -/
def table : List (Nat × String × String × String) :=
  [agreed 1 "EPERM" "Operation not permitted",
   agreed 2 "ENOENT" "No such file or directory",
   agreed 3 "ESRCH" "No such process",
   agreed 4 "EINTR" "Interrupted system call",
   (5, "EIO", "Input/output error", "I/O error"),
   agreed 6 "ENXIO" "No such device or address",
   agreed 7 "E2BIG" "Argument list too long",
   agreed 8 "ENOEXEC" "Exec format error",
   (9, "EBADF", "Bad file descriptor", "Bad file number"),
   agreed 10 "ECHILD" "No child processes",
   (11, "EAGAIN", "Resource temporarily unavailable", "Try again"),
   (12, "ENOMEM", "Cannot allocate memory", "Out of memory"),
   agreed 13 "EACCES" "Permission denied",
   agreed 14 "EFAULT" "Bad address",
   agreed 15 "ENOTBLK" "Block device required",
   agreed 16 "EBUSY" "Device or resource busy",
   agreed 17 "EEXIST" "File exists",
   (18, "EXDEV", "Invalid cross-device link", "Cross-device link"),
   agreed 19 "ENODEV" "No such device",
   agreed 20 "ENOTDIR" "Not a directory",
   agreed 21 "EISDIR" "Is a directory",
   agreed 22 "EINVAL" "Invalid argument",
   (23, "ENFILE", "Too many open files in system", "File table overflow"),
   agreed 24 "EMFILE" "Too many open files",
   (25, "ENOTTY", "Inappropriate ioctl for device", "Not a typewriter"),
   agreed 26 "ETXTBSY" "Text file busy",
   agreed 27 "EFBIG" "File too large",
   agreed 28 "ENOSPC" "No space left on device",
   agreed 29 "ESPIPE" "Illegal seek",
   agreed 30 "EROFS" "Read-only file system",
   agreed 31 "EMLINK" "Too many links",
   agreed 32 "EPIPE" "Broken pipe",
   (33, "EDOM", "Numerical argument out of domain", "Math argument out of domain of func"),
   (34, "ERANGE", "Numerical result out of range", "Math result not representable"),
   (35, "EDEADLK", "Resource deadlock avoided", "Resource deadlock would occur"),
   agreed 36 "ENAMETOOLONG" "File name too long",
   (37, "ENOLCK", "No locks available", "No record locks available"),
   agreed 38 "ENOSYS" "Function not implemented",
   agreed 39 "ENOTEMPTY" "Directory not empty",
   (40, "ELOOP", "Too many levels of symbolic links", "Too many symbolic links encountered"),
   agreed 42 "ENOMSG" "No message of desired type",
   agreed 43 "EIDRM" "Identifier removed",
   agreed 44 "ECHRNG" "Channel number out of range",
   agreed 45 "EL2NSYNC" "Level 2 not synchronized",
   agreed 46 "EL3HLT" "Level 3 halted",
   agreed 47 "EL3RST" "Level 3 reset",
   agreed 48 "ELNRNG" "Link number out of range",
   agreed 49 "EUNATCH" "Protocol driver not attached",
   agreed 50 "ENOCSI" "No CSI structure available",
   agreed 51 "EL2HLT" "Level 2 halted",
   agreed 52 "EBADE" "Invalid exchange",
   agreed 53 "EBADR" "Invalid request descriptor",
   agreed 54 "EXFULL" "Exchange full",
   agreed 55 "ENOANO" "No anode",
   agreed 56 "EBADRQC" "Invalid request code",
   agreed 57 "EBADSLT" "Invalid slot",
   agreed 59 "EBFONT" "Bad font file format",
   agreed 60 "ENOSTR" "Device not a stream",
   agreed 61 "ENODATA" "No data available",
   agreed 62 "ETIME" "Timer expired",
   agreed 63 "ENOSR" "Out of streams resources",
   agreed 64 "ENONET" "Machine is not on the network",
   agreed 65 "ENOPKG" "Package not installed",
   agreed 66 "EREMOTE" "Object is remote",
   agreed 67 "ENOLINK" "Link has been severed",
   agreed 68 "EADV" "Advertise error",
   agreed 69 "ESRMNT" "Srmount error",
   agreed 70 "ECOMM" "Communication error on send",
   agreed 71 "EPROTO" "Protocol error",
   agreed 72 "EMULTIHOP" "Multihop attempted",
   agreed 73 "EDOTDOT" "RFS specific error",
   (74, "EBADMSG", "Bad message", "Not a data message"),
   agreed 75 "EOVERFLOW" "Value too large for defined data type",
   agreed 76 "ENOTUNIQ" "Name not unique on network",
   agreed 77 "EBADFD" "File descriptor in bad state",
   agreed 78 "EREMCHG" "Remote address changed",
   agreed 79 "ELIBACC" "Can not access a needed shared library",
   agreed 80 "ELIBBAD" "Accessing a corrupted shared library",
   agreed 81 "ELIBSCN" ".lib section in a.out corrupted",
   agreed 82 "ELIBMAX" "Attempting to link in too many shared libraries",
   agreed 83 "ELIBEXEC" "Cannot exec a shared library directly",
   (84, "EILSEQ", "Invalid or incomplete multibyte or wide character", "Illegal byte sequence"),
   agreed 85 "ERESTART" "Interrupted system call should be restarted",
   agreed 86 "ESTRPIPE" "Streams pipe error",
   agreed 87 "EUSERS" "Too many users",
   agreed 88 "ENOTSOCK" "Socket operation on non-socket",
   agreed 89 "EDESTADDRREQ" "Destination address required",
   agreed 90 "EMSGSIZE" "Message too long",
   agreed 91 "EPROTOTYPE" "Protocol wrong type for socket",
   agreed 92 "ENOPROTOOPT" "Protocol not available",
   agreed 93 "EPROTONOSUPPORT" "Protocol not supported",
   agreed 94 "ESOCKTNOSUPPORT" "Socket type not supported",
   (95, "EOPNOTSUPP", "Operation not supported", "Operation not supported on transport endpoint"),
   agreed 96 "EPFNOSUPPORT" "Protocol family not supported",
   agreed 97 "EAFNOSUPPORT" "Address family not supported by protocol",
   agreed 98 "EADDRINUSE" "Address already in use",
   agreed 99 "EADDRNOTAVAIL" "Cannot assign requested address",
   agreed 100 "ENETDOWN" "Network is down",
   agreed 101 "ENETUNREACH" "Network is unreachable",
   (102, "ENETRESET", "Network dropped connection on reset",
     "Network dropped connection because of reset"),
   agreed 103 "ECONNABORTED" "Software caused connection abort",
   agreed 104 "ECONNRESET" "Connection reset by peer",
   agreed 105 "ENOBUFS" "No buffer space available",
   agreed 106 "EISCONN" "Transport endpoint is already connected",
   agreed 107 "ENOTCONN" "Transport endpoint is not connected",
   agreed 108 "ESHUTDOWN" "Cannot send after transport endpoint shutdown",
   agreed 109 "ETOOMANYREFS" "Too many references: cannot splice",
   agreed 110 "ETIMEDOUT" "Connection timed out",
   agreed 111 "ECONNREFUSED" "Connection refused",
   agreed 112 "EHOSTDOWN" "Host is down",
   agreed 113 "EHOSTUNREACH" "No route to host",
   agreed 114 "EALREADY" "Operation already in progress",
   agreed 115 "EINPROGRESS" "Operation now in progress",
   agreed 116 "ESTALE" "Stale file handle",
   agreed 117 "EUCLEAN" "Structure needs cleaning",
   agreed 118 "ENOTNAM" "Not a XENIX named type file",
   agreed 119 "ENAVAIL" "No XENIX semaphores available",
   agreed 120 "EISNAM" "Is a named type file",
   agreed 121 "EREMOTEIO" "Remote I/O error",
   (122, "EDQUOT", "Disk quota exceeded", "Quota exceeded"),
   agreed 123 "ENOMEDIUM" "No medium found",
   agreed 124 "EMEDIUMTYPE" "Wrong medium type",
   agreed 125 "ECANCELED" "Operation canceled",
   agreed 126 "ENOKEY" "Required key not available",
   agreed 127 "EKEYEXPIRED" "Key has expired",
   agreed 128 "EKEYREVOKED" "Key has been revoked",
   agreed 129 "EKEYREJECTED" "Key was rejected by service",
   agreed 130 "EOWNERDEAD" "Owner died",
   agreed 131 "ENOTRECOVERABLE" "State not recoverable",
   agreed 132 "ERFKILL" "Operation not possible due to RF-kill",
   agreed 133 "EHWPOISON" "Memory page has hardware error"]

/-- The wording of the C library. -/
def text (n : Int) : String :=
  if n = 0 then "Success"
  else
    match table.find? (fun row => (row.1 : Int) = n) with
    | some (_, _, text, _) => text
    | none => "Unknown error " ++ Text.Numeral.signed n

/-- The symbolic name with its wording. -/
def named (n : Int) : String :=
  match table.find? (fun row => (row.1 : Int) = n) with
  | some (_, name, _, text) => name ++ ": " ++ text
  | none => "UnknownErrno: Unknown errno"

/-- The wording of the C library with the number. -/
def numbered (n : Int) : String := text n ++ " (os error " ++ Text.Numeral.signed n ++ ")"

end NetRelocation.Errno
