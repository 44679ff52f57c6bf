import LaneBus.FileTree

/-! # The standard file tree

The places that a machine has before anybody has made any: its devices, what it
tells about itself and its processes, and a few files of its configuration.
Nothing can be made where the machine tells about itself.
-/
namespace LaneBus
namespace FileTree

/-- The names in a folder of the root. -/
def inRoot (folder : String) (names : List String) : List (List String) :=
  names.map fun name => [folder, name]

/-- The folders of the root. -/
def rootFolders : List String :=
  ["bin", "boot", "dev", "etc", "home", "lib", "lib64", "media", "mnt", "opt", "root", "run",
    "sbin", "srv", "tmp", "usr", "var"]

/-- The devices. -/
def devices : List String :=
  ["console", "full", "kmsg", "null", "ptmx", "random", "stderr", "stdin", "stdout", "tty",
    "urandom", "zero"]

/-- The files about the machine. -/
def machineFiles : List String :=
  ["buddyinfo", "cgroups", "cmdline", "config.gz", "consoles", "cpuinfo", "crypto", "devices",
    "diskstats", "dma", "execdomains", "filesystems", "interrupts", "iomem", "ioports",
    "kallsyms", "key-users", "keys", "kmsg", "loadavg", "locks", "meminfo", "misc", "modules",
    "mounts", "mtrr", "pagetypeinfo", "partitions", "slabinfo", "softirqs", "stat", "swaps",
    "timer_list", "uptime", "version", "vmallocinfo", "vmstat", "zoneinfo"]

/-- The folders about the machine. -/
def machineFolders : List String :=
  ["1", "acpi", "bus", "driver", "fs", "irq", "net", "pressure", "self", "sys", "sysvipc",
    "thread-self", "tty"]

/-- The files about a process. -/
def processFiles : List String :=
  ["cmdline", "comm", "environ", "exe", "io", "limits", "maps", "mem", "mounts", "stat", "statm",
    "status"]

/-- The folders about a process. -/
def processFolders : List String := ["attr", "fd", "fdinfo", "map_files", "net", "ns", "task"]

/-- The files of the configuration. -/
def configurationFiles : List String :=
  ["fstab", "group", "gshadow", "host.conf", "hostname", "hosts", "issue", "login.defs", "mtab",
    "nsswitch.conf", "os-release", "passwd", "profile", "resolv.conf", "shadow", "shells"]

/-- The commands. -/
def commands : List String := ["cat", "ls", "sh", "true"]

/-- The folders about the kernel. -/
def kernelFolders : List String :=
  ["block", "bus", "class", "dev", "devices", "firmware", "fs", "kernel", "module", "power"]

/-- The folders about the parts of the kernel. -/
def partFolders : List String := ["abi", "debug", "dev", "fs", "kernel", "net", "user", "vm"]

/-- The names in the folders about processes. -/
def ofProcesses (names : List String) : List (List String) :=
  ["1", "self", "thread-self"].flatMap fun p => names.map fun name => ["proc", p, name]

/-- The places of a machine with what there is at them, of which the last counts. -/
def machinePlaces : List (FileNode × List (List String)) := [
  (.folder, rootFolders.map ([·])),
  (.folder, inRoot "dev" ["mqueue", "shm"]),
  (.folder, inRoot "usr" ["bin", "lib", "local", "sbin", "share"]),
  (.folder, inRoot "var" ["cache", "lib", "log", "run", "tmp"]),
  (.file, inRoot "dev" devices ++ inRoot "etc" configurationFiles),
  (.file, inRoot "bin" commands ++ commands.map fun name => ["usr", "bin", name]),
  (.closed .missing, ["proc"] :: ["dev", "fd"] :: inRoot "proc" machineFolders),
  (.closed .missing, ofProcesses processFolders),
  (.closed .missing, partFolders.map fun name => ["proc", "sys", name]),
  (.file, inRoot "proc" machineFiles ++ ofProcesses processFiles),
  (.closed .forbidden, ["sys"] :: ["dev", "pts"] :: inRoot "sys" kernelFolders)]

/-- The tree with things of several kinds. -/
def insertKinds (t : FileTree) (kinds : List (FileNode × List (List String))) : FileTree :=
  kinds.foldl (fun t (node, places) => t.insertAll node places) t

/-- The tree of a machine. -/
def standard : FileTree := ({} : FileTree).insertKinds machinePlaces

end FileTree
end LaneBus
