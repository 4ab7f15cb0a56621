import Sylar.LogFormatter
import Sylar.LogPattern
import Sylar.Transition
import Sylar.Logger
import Sylar.LogDefine
import Sylar.ConfigVar
import Sylar.LogIniter
import Sylar.Yaml
import Sylar.Container
import Sylar.LexicalCast
import Sylar.LogDefineCast
import Sylar.Config
import Sylar.Interleaving
import Sylar.ConcurrentSetValue
import Sylar.ConcurrentLookup
import Sylar.Fiber
import Sylar.Util
import Sylar.Mutex
import Sylar.Thread
import Sylar.LogOutput
import Sylar.ConfigListeners
import Sylar.ConfigLookup
import Sylar.LogConfig
